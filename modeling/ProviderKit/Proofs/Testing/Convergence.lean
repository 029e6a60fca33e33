import ProviderKit.Proofs.Planning.DistinctProposal
import ProviderKit.Proofs.Server.PlannedChange
import ProviderKit.Proofs.Testing.Plan

/-!
# Planning converges

A practitioner who applies a plan and plans the same configuration again expects to find
nothing to change.  Apply is free to choose a value for each unknown part of the plan, and
the state it leaves has to fit the schema, which is all that is assumed of it here.  The
second plan then is that state, and nothing is replaced.

Both plans cross the wire, so the documents they print have to be read as they were written.
-/

namespace ProviderKit
namespace Tester

variable {σ δ : Type} {server : Server (StateM σ) δ} {typeName : String}

/-- The documents that a plan prints: what it sends, and the planned state. -/
def printed (schema : Schema) (prior config : Value) : List Json :=
  let proposed := schema.propose prior config
  let planned := (Server.plannedChange schema prior config proposed).result.1
  [prior.toJson, proposed.toJson, config.toJson, planned.toJson]

/-- A decoded value is decoded again from its own document. -/
theorem ofJson_toJson_of_given {type : AttributeType} (wellFormed : type.WellFormed)
    {document : Option Json} {value : Value} (isGiven : given type document = .ok value) :
    Value.ofJson type value.toJson = .ok value := by
  have conforms : Value.HasType type value ∧ Value.DistinctSets value := by
    cases document with
    | none =>
        cases isGiven
        exact ⟨.null type, .null⟩
    | some json => exact Value.conforms_of_decodeAt isGiven
  exact (Value.decodeAt_toJson_iff conforms.1 wellFormed [] value).mpr ⟨conforms.2, rfl⟩

/-- A document that reads back is read from its payload. -/
theorem readDocument_encode {value : Value} (readsBack : value.toJson.ReadsBack) :
    readDocument (some (.encode value)) = .ok value.toJson := by
  have read : Json.parseBytes (DynamicValue.encode value).json = .ok value.toJson :=
    (Json.parseBytes_toUTF8 _).trans readsBack
  simp only [readDocument, DynamicValue.encode_json_isEmpty readsBack, read]
  rfl

theorem of_readPlan {response : Protocol.PlanChangeResponse} {planned : PlannedChange}
    (read : readPlan response = .ok planned) :
    Diagnostics.hasError (response.diagnostics.map Diagnostic.ofWire) = false ∧
      readDocument response.plannedState = .ok planned.plannedState := by
  unfold readPlan at read
  simp only at read
  split at read
  · cases read
  · next fine =>
    cases document : readDocument response.plannedState with
    | error failure =>
        rw [document] at read
        cases read
    | ok found =>
        rw [document] at read
        cases read
        exact ⟨Bool.eq_false_iff.mpr fine, rfl⟩

section Plans

variable {schema : Schema} {prior config : Value}

/-- The values of a request, where what it proposes decodes. -/
private theorem planDecodes (server : Server (StateM σ) δ) (typeName : String)
    (wellFormed : schema.block.WellFormed)
    (readsBack : ∀ document ∈ printed schema prior config, document.ReadsBack)
    (priorDecodes : Value.ofJson schema.valueType prior.toJson = .ok prior)
    (configDecodes : Value.ofJson schema.valueType config.toJson = .ok config)
    (distinct : Value.DistinctSets (schema.propose prior config)) :
    server.PlanDecodes schema
      (Server.planRequest typeName prior (schema.propose prior config) config) prior
        (schema.propose prior config) config := by
  obtain ⟨priorRead, proposedRead, configRead, _⟩ : prior.toJson.ReadsBack ∧
      (schema.propose prior config).toJson.ReadsBack ∧ config.toJson.ReadsBack ∧ True := by
    simp only [printed, List.forall_mem_cons] at readsBack
    exact ⟨readsBack.1, readsBack.2.1, readsBack.2.2.1, trivial⟩
  have typed := wellFormed.hasType_propose (Value.conforms_of_decodeAt priorDecodes).1
    (Value.conforms_of_decodeAt configDecodes).1
  refine server.planDecodes_planRequest typeName ⟨priorRead, priorDecodes⟩ ⟨proposedRead, ?_⟩
    ⟨configRead, configDecodes⟩
  exact (Value.decodeAt_toJson_iff typed wellFormed.valueType [] _).mpr ⟨distinct, rfl⟩

variable {priorDocument configDocument : Option Json} {world : σ} {planned : PlannedChange}
  {after : Server (StateM σ) δ}

/-- A plan that succeeds is the change that the schema plans for the proposal. -/
private theorem of_plan (wellFormed : schema.block.WellFormed)
    (serves : server.Serves typeName schema)
    (readsBack : ∀ document ∈ printed schema prior config, document.ReadsBack)
    (priorGiven : given schema.valueType priorDocument = .ok prior)
    (configGiven : given schema.valueType configDocument = .ok config)
    (success : outcome (run (plan typeName priorDocument configDocument) server) world =
      (.ok planned, after)) :
    after = server ∧ planned.plannedState =
      (Server.plannedChange schema prior config (schema.propose prior config)).result.1.toJson := by
  rcases serves.described with ⟨served, described, rfl⟩
  rw [outcome_plan described priorGiven configGiven] at success
  rcases Prod.mk.inj success with ⟨read, same⟩
  rcases of_readPlan read with ⟨fine, document⟩
  rcases serves.answered world with ⟨resource, found⟩
  have priorDecodes := ofJson_toJson_of_given wellFormed.valueType priorGiven
  have configDecodes := ofJson_toJson_of_given wellFormed.valueType configGiven
  have typed := wellFormed.hasType_propose (Value.conforms_of_decodeAt priorDecodes).1
    (Value.conforms_of_decodeAt configDecodes).1
  -- The host sends what it likes, so that the proposal decodes is known from the answer only.
  have distinct : Value.DistinctSets (served.schema.propose prior config) := by
    rcases serves.offers.planDecodes rfl server.decodeMeta_none found fine
      with ⟨_, proposed, _, decodes⟩
    have proposedRead := readsBack _ (List.mem_cons_of_mem _ List.mem_cons_self)
    have decoded : Value.ofJson served.schema.valueType
        (served.schema.propose prior config).toJson = .ok proposed := by
      have holds := decodes.proposed ""
      simp only [Server.planRequest, Server.decodePayload,
        DynamicValue.decode_encode proposedRead] at holds
      split at holds
      · next success => exact (Prod.mk.inj holds).1 ▸ success
      · cases (Prod.mk.inj holds).2
    exact ((Value.decodeAt_toJson_iff typed wellFormed.valueType [] _).mp decoded).1
  have decodes := planDecodes server typeName wellFormed readsBack priorDecodes configDecodes
    distinct
  refine ⟨same.symm, ?_⟩
  rw [serves.offers.planResourceChange rfl decodes found] at document
  have plannedRead := readsBack _ (List.mem_of_getLast? rfl)
  rw [Server.planResponse, readDocument_encode plannedRead] at document
  exact (Except.ok.inj document).symm

/-- A plan succeeds when its proposal repeats no element of a set and the defaults leave no
problem.  It is the change that the schema plans for the proposal. -/
theorem plan_succeeds (wellFormed : schema.block.WellFormed)
    (serves : server.Serves typeName schema)
    (readsBack : ∀ document ∈ printed schema prior config, document.ReadsBack)
    (priorGiven : given schema.valueType priorDocument = .ok prior)
    (configGiven : given schema.valueType configDocument = .ok config)
    (distinct : Value.DistinctSets (schema.propose prior config))
    {state : Value} {replaced : Paths}
    (change : Server.plannedChange schema prior config (schema.propose prior config) =
      ⟨(state, replaced), []⟩) (world : σ) :
    ∃ diagnostics, outcome (run (plan typeName priorDocument configDocument) server) world =
      (.ok ⟨state.toJson, (replaced.toList.map Path.toWire).map Path.ofWire, diagnostics⟩,
        server) := by
  rcases serves.described with ⟨served, described, rfl⟩
  rcases serves.answered world with ⟨resource, found⟩
  have decodes := planDecodes server typeName wellFormed readsBack
    (ofJson_toJson_of_given wellFormed.valueType priorGiven)
    (ofJson_toJson_of_given wellFormed.valueType configGiven) distinct
  have stateRead : state.toJson.ReadsBack := readsBack _ (by simp [printed, change])
  let warnings := (outcome (server.resource typeName) world).2
  have lookup : warnings.hasError = false := Server.resource_hasError found
  refine ⟨warnings.toWire.map Diagnostic.ofWire, ?_⟩
  rw [outcome_plan described priorGiven configGiven,
    serves.offers.planResourceChange rfl decodes found, change]
  refine Prod.ext ?_ rfl
  unfold readPlan Server.planResponse
  simp only [List.append_nil, Server.hasError_ofWire_toWire, warnings, lookup]
  rw [readDocument_encode stateRead]
  rfl

end Plans

/-- Planning converges.  When a plan for a known configuration succeeds, and a state fits the
schema and has known values where the plan is unknown, the next plan for the configuration
succeeds too: it is that state, and replaces nothing.  The plan is taken as the value that it is
the document of, which it decodes to unless a set in it repeats an element. -/
theorem plan_converges {schema : Schema} (wellFormed : schema.block.WellFormed)
    (defaults : schema.block.DefaultsKnown) (serves : server.Serves typeName schema)
    {priorDocument : Option Json} {configDocument : Json} {prior config : Value}
    (priorGiven : given schema.valueType priorDocument = .ok prior)
    (configGiven : Value.ofJson schema.valueType configDocument = .ok config)
    (configured : config.isNull = false) (configKnown : config.isFullyKnown = true)
    {world : σ} {first : PlannedChange} {after : Server (StateM σ) δ}
    (success : outcome (run (plan typeName priorDocument (some configDocument)) server) world =
      (.ok first, after))
    {planned state : Value}
    (plannedTyped : Value.HasType schema.valueType planned)
    (plannedPrints : planned.toJson = first.plannedState)
    (refines : planned.Refines state) (stateKnown : state.isFullyKnown = true)
    (stateDecodes : Value.ofJson schema.valueType state.toJson = .ok state)
    (readsBack : ∀ document ∈ printed schema prior config ++ printed schema state config,
      document.ReadsBack) (world' : σ) :
    ∃ second, outcome (run (plan typeName (some state.toJson) (some configDocument)) after) world' =
      (.ok second, after) ∧ second.plannedState = state.toJson ∧ second.requiresReplace = [] := by
  rcases List.forall_mem_append.mp readsBack with ⟨firstRead, secondRead⟩
  have present : given schema.valueType (some configDocument) = .ok config := configGiven
  rcases of_plan wellFormed serves firstRead priorGiven present success with ⟨rfl, sent⟩
  have priorDecodes := ofJson_toJson_of_given wellFormed.valueType priorGiven
  have configTyped := (Value.conforms_of_decodeAt configGiven).1
  have configRead := firstRead config.toJson (by simp [printed])
  have ordered := Value.keyOrdered_of_toJson configRead.keyOrdered
  have proposedTyped := wellFormed.hasType_propose (Value.conforms_of_decodeAt priorDecodes).1
    configTyped
  have plannedStable : schema.block.Stable config planned := by
    rw [plannedTyped.eq_of_toJson_eq (Server.hasType_plannedChange wellFormed proposedTyped)
      wellFormed.valueType (plannedPrints.trans sent)]
    exact Server.stable_plannedChange wellFormed configTyped ordered configured
  have stable := wellFormed.stable_refines defaults configTyped ordered configKnown plannedStable
    refines
  have distinct := wellFormed.distinctSets_propose ⟨configTyped, ordered, configKnown⟩
    (Value.conforms_of_decodeAt configGiven).2 stateKnown
    (Value.conforms_of_decodeAt stateDecodes).2 stable
  have stateGiven : given schema.valueType (some state.toJson) = .ok state := stateDecodes
  rcases plan_succeeds wellFormed serves secondRead stateGiven present
    distinct (Server.plannedChange_of_stable defaults configured stable) world'
    with ⟨diagnostics, second⟩
  exact ⟨_, second, rfl, rfl⟩

/-! A resource with a computed identifier and a set of rules, whose mode has a default. -/

/-- The mode of a rule, `tcp` when the configuration gives none. -/
def ruleMode : Attribute :=
  { type := .string, flags := { optional := true }, defaultValue := some (.string "tcp") }

def ruleSchema : Schema where
  version := 0
  block :=
    ⟨[("id", { type := .string, flags := { computed := true } })],
      [("rule", .ofMode .set ⟨[("mode", ruleMode)], [], none⟩)], none⟩

/-- The document of a configuration whose second rule has no mode. -/
def ruleConfig : Json :=
  .object [("rule", .array [.object [("mode", .string "udp")], .object []])]

def ruleConfigValue (id : Value) : Value :=
  .object [("id", id),
    ("rule", .set [.object [("mode", .string "udp")], .object [("mode", .null)]])]

def ruleState (id : Value) : Value :=
  .object [("id", id),
    ("rule", .set [.object [("mode", .string "udp")], .object [("mode", .string "tcp")]])]

theorem ruleSchema_wellFormed : ruleSchema.block.WellFormed := by
  refine .intro (by simp [Entries.Sorted, ruleSchema]) (by simp [Entries.Sorted, ruleSchema])
    (by simp [ruleSchema]) (by simp [ruleSchema, AttributeType.WellFormed.string]) ?_
  simp only [ruleSchema, List.forall_mem_singleton, NestedBlock.ofMode]
  exact .intro (by simp [Entries.Sorted]) (by simp [Entries.Sorted]) (by simp)
    (by simp [ruleMode, AttributeType.WellFormed.string]) (by simp)

theorem ruleSchema_defaultsKnown : ruleSchema.block.DefaultsKnown := by
  refine .intro (by simp [ruleSchema, Attribute.DefaultKnown]) ?_
  simp only [ruleSchema, List.forall_mem_singleton, NestedBlock.ofMode]
  refine .intro ?_ (by simp)
  simp only [List.forall_mem_singleton]
  rintro document ⟨⟩
  exact ⟨.string "tcp", rfl, rfl⟩

private theorem rule_readsBack : Json.ReadsBack .null ∧
    (ruleConfigValue .null).toJson.ReadsBack ∧ (ruleConfigValue (.string "a")).toJson.ReadsBack ∧
    (ruleState .unknown).toJson.ReadsBack ∧ (ruleState (.string "a")).toJson.ReadsBack := by
  refine ⟨?_, ?_, ?_, ?_, ?_⟩ <;>
    · apply (Json.keyOrdered_iff.mpr rfl).readsBack
      simp [Json.maxDepth, ruleConfigValue, ruleState, Value.toJson, Value.toJsonItems,
        Value.toJsonMembers]

theorem plan_converges_for_rules : ∃ second,
    outcome (run (plan "rules" (some (ruleState (.string "a")).toJson) (some ruleConfig))
      (Server.ofSchema "rules" ruleSchema : Server (StateM Unit) Unit)) () =
        (.ok second, Server.ofSchema "rules" ruleSchema) ∧
      second.plannedState = (ruleState (.string "a")).toJson ∧ second.requiresReplace = [] := by
  have serves : (Server.ofSchema "rules" ruleSchema : Server (StateM Unit) Unit).Serves "rules"
      ruleSchema := Server.serves_ofSchema "rules" ruleSchema
  rcases rule_readsBack with ⟨null, config, proposed, unknown, state⟩
  have configGiven : Value.ofJson ruleSchema.valueType ruleConfig =
      .ok (ruleConfigValue .null) := rfl
  have firstRead : ∀ document ∈ printed ruleSchema .null (ruleConfigValue .null),
      document.ReadsBack :=
    List.forall_mem_cons.mpr ⟨null, List.forall_mem_cons.mpr ⟨config,
      List.forall_mem_cons.mpr ⟨config, List.forall_mem_singleton.mpr unknown⟩⟩⟩
  have secondRead : ∀ document ∈ printed ruleSchema (ruleState (.string "a"))
      (ruleConfigValue .null), document.ReadsBack :=
    List.forall_mem_cons.mpr ⟨state, List.forall_mem_cons.mpr ⟨proposed,
      List.forall_mem_cons.mpr ⟨config, List.forall_mem_singleton.mpr state⟩⟩⟩
  have distinct : Value.DistinctSets (ruleSchema.propose .null (ruleConfigValue .null)) :=
    (Value.conforms_of_decodeAt configGiven).2
  have priorGiven : given ruleSchema.valueType none = .ok .null := rfl
  have planned : Value.ofJson ruleSchema.valueType (ruleState .unknown).toJson =
      .ok (ruleState .unknown) := rfl
  have present : given ruleSchema.valueType (some ruleConfig) = .ok (ruleConfigValue .null) := rfl
  rcases plan_succeeds ruleSchema_wellFormed serves firstRead priorGiven
    present distinct rfl () with ⟨diagnostics, success⟩
  exact plan_converges ruleSchema_wellFormed ruleSchema_defaultsKnown serves priorGiven configGiven
    rfl rfl success (Value.conforms_of_decodeAt planned).1 rfl (by repeat constructor) rfl rfl
    (List.forall_mem_append.mpr ⟨firstRead, secondRead⟩) ()

end Tester
end ProviderKit
