import ProviderKit.Proofs.Server.PlannedChange
import ProviderKit.Proofs.Server.Planning

/-!
# Applying what was planned

A host hands the planned state of a response back when it applies a plan.  The passes keep the
type of a planned value, but they may make elements of a set equal: a default can fill one
element with what another one already holds.  The planned state is read back exactly when that
has not happened, and then it is applied as it was planned.  Otherwise the application ends with
the problem of the payload, before any callback is called.
-/

namespace ProviderKit
namespace Server

variable {σ δ : Type} {server : Server (StateM σ) δ} {typeName : String} {schema : Schema}

/-- The request to apply what the response to a plan request says. -/
def applyRequest (request : Protocol.PlanChangeRequest) (response : Protocol.PlanChangeResponse) :
    Protocol.ApplyChangeRequest where
  typeName := request.typeName
  priorState := request.priorState
  plannedState := response.plannedState
  config := request.config
  providerMeta := request.providerMeta

/-- The application of decoded values: the callback that the change calls for, and the check
that nothing is left unknown. -/
def applied (resource : Resource (StateM σ)) (before : Diagnostics) (prior planned config : Value)
    (providerMeta : Config) : StateM σ Protocol.NewStateResponse := do
  let (newState, problems) ← applyChange resource before prior planned config providerMeta
  pure {
    state := some (.encode newState)
    diagnostics := (andThen problems (unknownAfter "apply" newState)).toWire }

variable {request : Protocol.ApplyChangeRequest} {prior planned config : Value} {world : σ}
  {resource : Resource (StateM σ)}

/-- All payloads of an apply request decode. -/
structure ApplyDecodes (server : Server (StateM σ) δ) (schema : Schema)
    (request : Protocol.ApplyChangeRequest) (prior planned config : Value) : Prop where
  prior : Holds schema request.priorState prior
  planned : Holds schema request.plannedState planned
  config : Holds schema request.config config
  metadata : (server.decodeMeta request.providerMeta).2 = []

/-- When all payloads decode, their values are applied. -/
theorem run_applyResourceChange
    (decodes : server.ApplyDecodes resource.schema request prior planned config)
    (found : (outcome (server.resource request.typeName) world).1 = some resource) :
    StateT.run (server.applyResourceChange (some request)) world =
      StateT.run (applied resource (outcome (server.resource request.typeName) world).2 prior
        planned config (server.decodeMeta request.providerMeta).1)
        (worldAfter (server.resource request.typeName) world) := by
  have lookup := resource_hasError found
  unfold Server.applyResourceChange
  rw [run_bind_eq]
  generalize outcome (server.resource request.typeName) world = answer at found lookup ⊢
  rcases answer with ⟨_, before⟩
  cases found
  simp only [decodes.prior _, decodes.planned _, decodes.config _, decodes.metadata,
    List.append_nil]
  rw [if_neg (Bool.eq_false_iff.mp lookup)]
  rfl

theorem Offers.applyResourceChange_of_holds (offers : server.Offers typeName schema)
    (named : request.typeName = typeName) (priorHolds : Holds schema request.priorState prior)
    (plannedHolds : Holds schema request.plannedState planned)
    (configHolds : Holds schema request.config config)
    (metadata : (server.decodeMeta request.providerMeta).2 = [])
    (found : (outcome (server.resource typeName) world).1 = some resource) :
    outcome (server.applyResourceChange (some request)) world =
      outcome (applied resource (outcome (server.resource typeName) world).2 prior planned config
        (server.decodeMeta request.providerMeta).1)
        (worldAfter (server.resource typeName) world) := by
  rcases offers world resource found with ⟨rfl, _⟩
  subst named
  exact congrArg Prod.fst
    (run_applyResourceChange ⟨priorHolds, plannedHolds, configHolds, metadata⟩ found)

/-- When only the planned state does not decode, this is reported and nothing is called. -/
theorem Offers.applyResourceChange_of_undecodable (offers : server.Offers typeName schema)
    (named : request.typeName = typeName) (priorHolds : Holds schema request.priorState prior)
    {payload : DynamicValue} {problem : ValueError} (carried : request.plannedState = some payload)
    (undecodable : payload.decode schema.valueType = .error problem)
    (configHolds : Holds schema request.config config)
    (metadata : (server.decodeMeta request.providerMeta).2 = [])
    (found : (outcome (server.resource typeName) world).1 = some resource) :
    outcome (server.applyResourceChange (some request)) world =
      { diagnostics := Diagnostics.toWire ((outcome (server.resource typeName) world).2 ++
          [payloadError "planned state" problem]) } := by
  rcases offers world resource found with ⟨rfl, _⟩
  subst named
  have reported : decodePayload resource.schema "planned state" request.plannedState =
      (.null, [payloadError "planned state" problem]) := by
    rw [carried]
    simp only [decodePayload, undecodable]
  unfold Server.applyResourceChange
  rw [outcome_bind]
  generalize outcome (server.resource request.typeName) world = answer at found ⊢
  rcases answer with ⟨_, before⟩
  cases found
  simp only [priorHolds _, reported, configHolds _, metadata, List.append_nil]
  rw [if_pos, outcome_pure]
  rw [hasError_append]
  exact Bool.or_eq_true_iff.mpr (.inr rfl)

/-- A planned state is decoded exactly when its sets repeat no element, and to itself only. -/
theorem decode_plannedState_iff (wellFormed : schema.block.WellFormed) {proposed : Value}
    (typed : Value.HasType schema.valueType proposed)
    (readsBack : (plannedState schema prior proposed config).toJson.ReadsBack) (value : Value) :
    (DynamicValue.encode (plannedState schema prior proposed config)).decode schema.valueType =
        .ok value ↔
      (plannedState schema prior proposed config).DistinctSets ∧
        value = plannedState schema prior proposed config := by
  have plannedTyped : Value.HasType schema.valueType (plannedState schema prior proposed config) :=
    hasType_plannedChange wellFormed typed
  rw [DynamicValue.decode_encode readsBack]
  exact Value.decodeAt_toJson_iff plannedTyped wellFormed.valueType [] value

/-- What a plan emits can be read by an application exactly when the passes left no set with a
repeated element.  Then the application is one of the values that were planned with.  Otherwise
it reports that the planned state does not decode. -/
theorem Offers.reads_planned_state_iff (offers : server.Offers typeName schema)
    (wellFormed : schema.block.WellFormed) {request : Protocol.PlanChangeRequest}
    {prior proposed config : Value} (named : request.typeName = typeName)
    (decodes : server.PlanDecodes schema request prior proposed config)
    (readsBack : (plannedState schema prior proposed config).toJson.ReadsBack) {world : σ}
    (fine : Diagnostics.hasError ((outcome (server.planResourceChange (some request))
      world).diagnostics.map Diagnostic.ofWire) = false) :
    let response := outcome (server.planResourceChange (some request)) world
    let planned := plannedState schema prior proposed config
    let again := applyRequest request response
    ((∃ payload, response.plannedState = some payload ∧
      payload.decode schema.valueType = .ok planned) ↔ planned.DistinctSets) ∧
    (planned.DistinctSets → ∀ world resource,
      (outcome (server.resource typeName) world).1 = some resource →
        outcome (server.applyResourceChange (some again)) world =
          outcome (applied resource (outcome (server.resource typeName) world).2 prior planned
            config (server.decodeMeta request.providerMeta).1)
            (worldAfter (server.resource typeName) world)) ∧
    (¬ planned.DistinctSets → ∀ world resource,
      (outcome (server.resource typeName) world).1 = some resource →
        ∃ problem, outcome (server.applyResourceChange (some again)) world =
          { diagnostics := Diagnostics.toWire ((outcome (server.resource typeName) world).2 ++
              [payloadError "planned state" problem]) }) := by
  intro response planned again
  rcases exists_resource named fine with ⟨resource, found⟩
  have emitted : response.plannedState = some (.encode planned) := by
    simp only [response, offers.planResourceChange named decodes found]
    rfl
  have reads := decode_plannedState_iff wellFormed decodes.proposed.conforms.1 readsBack
  refine ⟨⟨?_, ?_⟩, ?_, ?_⟩
  · rintro ⟨payload, carried, decoded⟩
    rw [emitted] at carried
    cases carried
    exact ((reads planned).mp decoded).1
  · intro distinct
    exact ⟨_, emitted, (reads planned).mpr ⟨distinct, rfl⟩⟩
  · intro distinct world resource found
    have plannedHolds : Holds schema response.plannedState planned := by
      have decoded := (reads planned).mpr ⟨distinct, rfl⟩
      intro what
      rw [emitted]
      simp only [decodePayload, planned, decoded]
    exact offers.applyResourceChange_of_holds named decodes.prior plannedHolds decodes.config
      decodes.metadata found
  · intro repeated world resource found
    cases decoded : (DynamicValue.encode planned).decode schema.valueType with
    | ok value => exact absurd ((reads value).mp decoded).1 repeated
    | error problem =>
        refine ⟨problem, ?_⟩
        exact offers.applyResourceChange_of_undecodable named decodes.prior emitted decoded
          decodes.config decodes.metadata found

/-! A resource with a set of modes, one of which is the default. -/

def modeSchema : Schema where
  version := 0
  block :=
    ⟨[], [("rule", .ofMode .set ⟨[("mode",
      { type := .string, flags := { optional := true }, defaultValue := some (.string "tcp") })],
      [], none⟩)], none⟩

def modeRules (modes : List Value) : Value :=
  .object [("rule", .set (modes.map fun mode => .object [("mode", mode)]))]

theorem modeSchema_wellFormed : modeSchema.block.WellFormed := by
  refine .intro (by simp [Entries.Sorted, modeSchema]) (by simp [Entries.Sorted, modeSchema])
    (by simp [modeSchema]) (by simp [modeSchema]) ?_
  simp only [modeSchema, List.forall_mem_singleton, NestedBlock.ofMode]
  exact .intro (by simp [Entries.Sorted]) (by simp [Entries.Sorted]) (by simp)
    (by simp [AttributeType.WellFormed.string]) (by simp)

theorem modeRules_travel :
    Travels modeSchema .null ∧ Travels modeSchema (modeRules [.string "udp", .null]) ∧
    Travels modeSchema (modeRules [.string "tcp", .null]) ∧
    (modeRules [.string "udp", .string "tcp"]).toJson.ReadsBack ∧
    (modeRules [.string "tcp", .string "tcp"]).toJson.ReadsBack := by
  refine ⟨⟨?_, rfl⟩, ⟨?_, rfl⟩, ⟨?_, rfl⟩, ?_, ?_⟩ <;>
    · apply (Json.keyOrdered_iff.mpr rfl).readsBack
      simp [Json.maxDepth, modeRules, Value.toJson, Value.toJsonItems, Value.toJsonMembers]

/-- Where the default is not there yet, the planned state is read back. -/
theorem reads_planned_modes :
    let server : Server (StateM Unit) Unit := ofSchema "modes" modeSchema
    let config := modeRules [.string "udp", .null]
    ∃ payload, (outcome (server.planResourceChange
      (some (planRequest "modes" .null config config))) ()).plannedState = some payload ∧
      payload.decode modeSchema.valueType = .ok (modeRules [.string "udp", .string "tcp"]) := by
  intro server config
  rcases modeRules_travel with ⟨null, configTravels, _, readsBack, _⟩
  have serves : server.Serves "modes" modeSchema := serves_ofSchema "modes" modeSchema
  rcases serves.answered () with ⟨resource, found⟩
  have decodes := server.planDecodes_planRequest "modes" null configTravels configTravels
  have planned : plannedState modeSchema .null config config =
      modeRules [.string "udp", .string "tcp"] := rfl
  have noError : (plannedChange modeSchema .null config config).diagnostics.hasError = false := rfl
  have fine := (serves.offers.hasError_planResourceChange rfl decodes found).trans noError
  have decoded : Value.ofJson modeSchema.valueType
      (modeRules [.string "udp", .string "tcp"]).toJson =
        .ok (modeRules [.string "udp", .string "tcp"]) := rfl
  have distinct := (Value.conforms_of_decodeAt decoded).2
  rw [← planned] at readsBack distinct ⊢
  exact (serves.offers.reads_planned_state_iff modeSchema_wellFormed rfl decodes readsBack
    fine).1.mpr distinct

/-- The default makes the second rule equal to the first one.  The plan has no error, and what
it emits is rejected by the application. -/
theorem planned_state_is_not_read :
    let server : Server (StateM Unit) Unit := ofSchema "modes" modeSchema
    let config := modeRules [.string "tcp", .null]
    let request := planRequest "modes" .null config config
    let response := outcome (server.planResourceChange (some request)) ()
    let repeated : ValueError := .duplicateSetElement [.name "rule", .index 1]
    server.Serves "modes" modeSchema ∧ modeSchema.block.WellFormed ∧
      server.PlanDecodes modeSchema request .null config config ∧
      Diagnostics.hasError (response.diagnostics.map Diagnostic.ofWire) = false ∧
      (∃ payload, response.plannedState = some payload ∧
        payload.decode modeSchema.valueType = .error repeated) ∧
      (outcome (server.applyResourceChange (some (applyRequest request response))) ()).diagnostics =
        Diagnostics.toWire [payloadError "planned state" repeated] := by
  intro server config request response repeated
  rcases modeRules_travel with ⟨null, _, configTravels, _, readsBack⟩
  have serves : server.Serves "modes" modeSchema := serves_ofSchema "modes" modeSchema
  rcases serves.answered () with ⟨resource, found⟩
  have decodes := server.planDecodes_planRequest "modes" null configTravels configTravels
  have noError : (plannedChange modeSchema .null config config).diagnostics.hasError = false := rfl
  have planned : (plannedChange modeSchema .null config config).result.1 =
      modeRules [.string "tcp", .string "tcp"] := rfl
  have emitted : response.plannedState =
      some (.encode (modeRules [.string "tcp", .string "tcp"])) := by
    rw [← planned]
    exact congrArg Protocol.PlanChangeResponse.plannedState
      (serves.offers.planResourceChange rfl decodes found)
  have rejected : Value.ofJson modeSchema.valueType
      (modeRules [.string "tcp", .string "tcp"]).toJson = .error repeated := rfl
  have decoded := (DynamicValue.decode_encode readsBack modeSchema.valueType).trans rejected
  have fine : Diagnostics.hasError (response.diagnostics.map Diagnostic.ofWire) = false :=
    (serves.offers.hasError_planResourceChange rfl decodes found).trans noError
  have answer : outcome (server.applyResourceChange (some (applyRequest request response))) () =
      { diagnostics := Diagnostics.toWire ((outcome (server.resource "modes") ()).2 ++
          [payloadError "planned state" repeated]) } :=
    serves.offers.applyResourceChange_of_undecodable rfl decodes.prior emitted decoded
      decodes.config decodes.metadata found
  refine ⟨serves, modeSchema_wellFormed, decodes, fine, ⟨_, emitted, decoded⟩, ?_⟩
  rw [answer, resource_ofSchema, List.nil_append]

end Server
end ProviderKit
