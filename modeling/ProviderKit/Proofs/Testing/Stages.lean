import ProviderKit.Proofs.Json.NullText
import ProviderKit.Proofs.Server.Refresh
import ProviderKit.Proofs.Server.ProviderData
import ProviderKit.Proofs.Server.Reports
import ProviderKit.Proofs.Testing.Convergence
import ProviderKit.Proofs.Testing.Exchanges
import ProviderKit.Proofs.Value.Meaning

/-!
# What a stage of a test asks of a resource

A plan asks nothing that would change a resource or look at it.  An application without an error
runs the callback that the prior and the planned state call for, and a refresh of a state that is
there has it read.  What was left is known to the tester as a document only, and the next callback
is given what is decoded from the text of this document.

A tester goes by null documents, and a server by null values.  They agree, because no document but
null is printed as something that decodes to null.
-/

namespace ProviderKit

variable {σ δ : Type}

/-- Whether a callback changes a resource or looks at it. -/
def Event.isLifecycle : Event δ → Bool
  | created .. => true
  | refreshed .. => true
  | updated .. => true
  | deleted .. => true
  | _ => false

/-- The callbacks by which calls have changed a resource and looked at it. -/
def Exchange.lifecycle (calls : List (Exchange δ)) : List (Event δ) :=
  (calls.flatMap Exchange.events).filter Event.isLifecycle

namespace Exchange

@[simp] theorem lifecycle_nil : lifecycle ([] : List (Exchange δ)) = [] :=
  rfl

@[simp] theorem lifecycle_append (earlier later : List (Exchange δ)) :
    lifecycle (earlier ++ later) = lifecycle earlier ++ lifecycle later := by
  unfold lifecycle
  rw [List.flatMap_append, List.filter_append]

/-- A call behind whose instance only such callbacks run. -/
theorem lifecycle_singleton {request : Protocol.Request} {response : Protocol.Response}
    {typeName : String} {data : Option δ} {problems : Diagnostics} {callbacks : List (Event δ)}
    (each : ∀ event ∈ callbacks, event.isLifecycle = true) :
    lifecycle [⟨request, response, .resourceConfigured typeName data problems :: callbacks⟩] =
      callbacks := by
  unfold lifecycle
  rw [List.flatMap_singleton, List.filter_cons_of_neg Bool.false_ne_true]
  exact List.filter_eq_self.mpr each

end Exchange

/-! ## Null documents -/

/-- Only null decodes to null. -/
theorem Value.eq_null_of_ofJson_eq_null {type : AttributeType} {json : Json}
    (decoded : ofJson type json = .ok null) : json = .null := by
  suffices absent : ∀ value, ofJson type json = .ok value → value = null → json = .null from
    absent null decoded rfl
  intro value decoded
  refine ofJson_induct (motive := fun _ json value => value = null → json = .null)
    (fun _ _ => rfl) (fun _ => nofun) (fun _ _ => nofun) (fun _ _ _ => nofun) (fun _ => nofun)
    (fun _ => nofun) (fun _ _ _ _ => nofun) (fun _ _ _ _ _ => nofun) (fun _ _ _ _ => nofun)
    (fun _ _ _ _ _ => nofun) (fun json absent => ?_) decoded
  cases json with
  | null => rfl
  | string s =>
      unfold ofUntyped at absent
      split at absent <;> cases absent
  | _ => cases absent

/-- Only null has null for its document. -/
theorem Value.eq_null_of_toJson_eq_null {value : Value} (absent : value.toJson = .null) :
    value = null := by
  cases value with
  | null => rfl
  | _ => cases absent

theorem DynamicValue.ofText_compact_isEmpty (document : Json) :
    (ofText document.compact).json.isEmpty = false := by
  refine Bool.eq_false_iff.mpr fun empty => document.compact_ne_empty ?_
  exact String.utf8ByteSize_eq_zero_iff.mp (beq_iff_eq.mp empty)

namespace Tester

open Server

/-- The document of null gives null. -/
theorem eq_null_of_received_null {schema : Schema} {value : Value}
    (received : Received schema (payload .null) value) : value = .null := by
  have null : Received schema (payload .null) .null := by
    have parsed : Json.parse Json.null.compact = .ok .null := rfl
    refine .decoded ((DynamicValue.decode_ofText parsed _).trans ?_)
    exact Value.decodeAt_null _ _ []
  exact received.holds.payloadValue_eq.symm.trans null.holds.payloadValue_eq

/-- A document is given by decoding its text, since there is one. -/
theorem decode_of_received {schema : Schema} {document : Json} {value : Value}
    (received : Received schema (payload document) value) :
    (DynamicValue.ofText document.compact).decode schema.valueType = .ok value := by
  have present := DynamicValue.ofText_compact_isEmpty document
  generalize same : payload document = carried at received
  cases received with
  | absent => cases same
  | empty =>
      rw [Option.some.inj same] at present
      cases present
  | decoded success => exact Option.some.inj same ▸ success

/-- No other document gives null. -/
theorem eq_null_of_received {schema : Schema} {document : Json}
    (received : Received schema (payload document) .null) : document = .null := by
  have present := DynamicValue.ofText_compact_isEmpty document
  have decoded := decode_of_received received
  have read : Json.parseBytes (DynamicValue.ofText document.compact).json =
      Json.parse document.compact := Json.parseBytes_toUTF8 _
  unfold DynamicValue.decode at decoded
  rw [present, read] at decoded
  cases parsed : Json.parse document.compact with
  | error cause =>
      rw [parsed] at decoded
      cases decoded
  | ok found =>
      rw [parsed] at decoded
      cases Value.eq_null_of_ofJson_eq_null decoded
      exact Json.eq_null_of_parse_compact parsed

theorem ne_null_of_received {schema : Schema} {document : Json} {value : Value}
    (nonnull : document ≠ .null) (received : Received schema (payload document) value) :
    value ≠ .null := by
  rintro rfl
  exact nonnull (eq_null_of_received received)

/-- Only null is read as null. -/
theorem eq_null_of_readDocument {value : Value}
    (read : readDocument (some (.encode value)) = .ok .null) : value = .null := by
  have bytes : Json.parseBytes (DynamicValue.encode value).json =
      Json.parse value.toJson.compact := Json.parseBytes_toUTF8 _
  have nonempty : (DynamicValue.encode value).json.isEmpty = false :=
    DynamicValue.ofText_compact_isEmpty value.toJson
  simp only [readDocument, nonempty, Bool.false_eq_true, if_false, bytes] at read
  split at read
  · next parsed =>
    cases read
    exact Value.eq_null_of_toJson_eq_null (Json.eq_null_of_parse_compact parsed)
  · cases read

theorem readDocument_null : readDocument (some (.encode .null)) = .ok .null :=
  readDocument_encode (rfl : Value.null.toJson.ReadsBack)

theorem present_eq_some_iff {document found : Json} :
    present document = some found ↔ document = found ∧ found ≠ .null := by
  unfold present
  split
  · next absent =>
    cases document with
    | null => simp +contextual [eq_comm]
    | _ => cases absent
  · next given =>
    rw [Option.some.injEq]
    refine (and_iff_left_of_imp ?_).symm
    rintro rfl rfl
    exact given rfl

theorem present_eq_none_iff {document : Json} : present document = none ↔ document = .null := by
  cases document with
  | null => exact iff_of_true rfl rfl
  | _ => exact iff_of_false nofun nofun

end Tester

/-! ## Calls without an error -/

namespace Server

variable {server : Server (StateM σ) δ} {world : σ}

theorem noting_planning (call : Option Protocol.PlanChangeRequest) :
    Noting (fun event => event.isLifecycle = false) id (server.planResourceChange call)
      (server.journaled.planResourceChange call) := by
  cases call with
  | none => exact .of_pure _ id _
  | some request =>
      have made : Noting (fun event => event.isLifecycle = false)
          (Prod.map (Option.map Resource.journaled) id) (server.resource request.typeName)
          (server.journaled.resource request.typeName) := by
        intro world
        refine ⟨_, server.journals_resource request.typeName world, ?_⟩
        simp [Event.isLifecycle]
      refine made.bind_instance (fun _ => .of_pure _ id _) fun resource lookup => ?_
      refine .ite (.of_pure _ id _) (.ite ?_ ?_)
      · exact (Noting.of_pure _ id _).bind fun _ => .of_pure _ id _
      · refine Noting.bind (.of_noted _ _ ?_) fun _ => .of_pure _ id _
        exact fun _ => rfl

/-- A call about a resource whose response has no error was answered by an instance, and its
payloads decode. -/
theorem Follows.decoded {α β : Type} {request : Protocol.Request} {typeName : String}
    {reported : α → List WireDiagnostic} {change : α → β} {plain : StateM σ α}
    {journaled : JournalM σ δ β}
    (follows : Follows server request reported change plain journaled world)
    (approached : server.approach request = server.resourceSchema typeName)
    (fine : Diagnostics.hasError ((reported (outcome plain world)).map Diagnostic.ofWire) = false) :
    ∃ resource, (outcome (server.resource typeName) world).1 = some resource ∧
      (server.conversions resource.schema request).hasError = false := by
  rcases follows with ⟨_, callback, _, _, _, course⟩
  have found : outcome (server.approach request) world =
      ((outcome (server.resource typeName) world).1.map Resource.schema,
        (outcome (server.resource typeName) world).2) := by
    rw [approached]
    rfl
  rw [found] at course
  cases made : (outcome (server.resource typeName) world).1 with
  | none =>
      have failed := hasError_of_resource_eq_none made
      rw [course.reported_eq, hasError_ofWire_toWire, hasError_append, hasError_append, failed]
        at fine
      cases fine
  | some resource =>
      rw [made] at course
      exact ⟨resource, rfl, course.hasError_conversions fine⟩

/-- An application without an error runs the callback for the values that it was given. -/
theorem journals_application (server : Server (StateM σ) δ) (world : σ)
    (request : Protocol.ApplyChangeRequest) :
    JournalsThat (fun response events =>
        Diagnostics.hasError (response.diagnostics.map Diagnostic.ofWire) = false →
        ∃ schema prior planned config callbacks newState problems,
          events = .resourceConfigured request.typeName server.providerData problems ::
            callbacks ∧
          Received schema request.priorState prior ∧
          Dispatched schema prior planned config (server.decodeMeta request.providerMeta).1
            callbacks newState ∧
          response.state = some (.encode newState) ∧ (newState = .null ↔ planned = .null)) id
      (server.applyResourceChange (some request))
      (server.journaled.applyResourceChange (some request)) world := by
  by_cases fine : Diagnostics.hasError ((outcome (server.applyResourceChange (some request))
      world).diagnostics.map Diagnostic.ofWire) = false
  · rcases (server.follows_applyResourceChange (some request)).decoded rfl fine with
      ⟨resource, made, decoded⟩
    have received {what : String} {payload : Option DynamicValue} (carried : (what, payload) ∈
        (Protocol.Request.applyResourceChange (some request)).payloads) :
        Received resource.schema payload (payloadValue resource.schema payload) :=
      received_of_decoded decoded carried
    have prior := received (.head _)
    have decodes : server.ApplyDecodes resource.schema request _ _ _ :=
      ⟨prior.holds, (received (.tail _ (.head _))).holds,
        (received (.tail _ (.tail _ (.head _)))).holds, decodeMeta_of_decoded decoded⟩
    rcases journals_applied (δ := δ) resource (outcome (server.resource request.typeName) world).2
      (payloadValue resource.schema request.priorState)
      (payloadValue resource.schema request.plannedState)
      (payloadValue resource.schema request.config) (server.decodeMeta request.providerMeta).1
      (worldAfter (server.resource request.typeName) world) with
      ⟨callbacks, newState, journals, dispatched, recorded, useful⟩
    have same := congrArg Prod.fst (run_applyResourceChange decodes made)
    refine ⟨_, journals_applyResourceChange made decodes journals, fun _ => ?_⟩
    refine ⟨_, _, _, _, callbacks, newState, _, rfl, prior, dispatched, ?_, ?_⟩
    · exact (congrArg Protocol.NewStateResponse.state same).trans recorded
    · change outcome (server.applyResourceChange (some request)) world = _ at same
      rw [same] at fine
      exact (useful fine).2
  · rcases server.noting_applyResourceChange (some request) world with ⟨events, journals, _⟩
    exact ⟨events, journals, fun clean => absurd clean fine⟩

/-- A refresh without an error reads the state that it was given, unless there was none. -/
theorem journals_refresh (server : Server (StateM σ) δ) (world : σ)
    (request : Protocol.ReadResourceRequest)
    (present : ∀ schema, ¬ Received schema request.currentState .null) :
    JournalsThat (fun response events =>
        Diagnostics.hasError (response.diagnostics.map Diagnostic.ofWire) = false →
        ∃ (state : State) (providerMeta : Config) (left : StateResponse)
            (problems : Diagnostics),
          events = [.resourceConfigured request.typeName server.providerData problems,
            .refreshed ⟨state, providerMeta⟩ ⟨state, []⟩ left] ∧
          Received state.schema request.currentState state.raw ∧
          response.state = some (.encode left.state.raw)) id
      (server.readResource (some request)) (server.journaled.readResource (some request))
      world := by
  by_cases fine : Diagnostics.hasError ((outcome (server.readResource (some request))
      world).diagnostics.map Diagnostic.ofWire) = false
  · rcases (server.follows_readResource (some request)).decoded rfl fine with
      ⟨resource, made, decoded⟩
    have carried : ("current state", request.currentState) ∈
        (Protocol.Request.readResource (some request)).payloads := .head _
    have received : Received resource.schema request.currentState
        (payloadValue resource.schema request.currentState) :=
      received_of_decoded decoded carried
    have reads : ¬ server.KeepsState request world := by
      rw [keepsState_iff made, List.append_assoc, hasError_append, resource_hasError made,
        Bool.false_or]
      have conversions : (payloadProblem? resource.schema "current state"
          request.currentState).toList ++ (server.metaProblem? request.providerMeta).toList =
            server.conversions resource.schema (.readResource (some request)) := by
        simp [Server.conversions]
      rw [conversions, decoded]
      rintro (⟨⟨⟩⟩ | null)
      exact present resource.schema (null ▸ received)
    rcases readResource_of_reads made reads with ⟨encoded, journals⟩
    exact ⟨_, journals, fun _ => ⟨_, _, _, _, rfl, received, encoded⟩⟩
  · rcases server.noting_readResource (some request) world with ⟨events, journals, _⟩
    exact ⟨events, journals, fun clean => absurd clean fine⟩

end Server

/-! ## The stages -/

namespace Tester

open Server

variable {server : Server (StateM σ) δ} {typeName : String} {world : σ}

/-- A callback has left a value, of which the tester has read a document that is not null. -/
def Leaves (left : Value) (document : Json) : Prop :=
  readDocument (some (.encode left)) = .ok document ∧ document ≠ .null

/-- A callback is given a state that is decoded from the text of a document. -/
def Gives (document : Json) (given : State) : Prop :=
  Received given.schema (payload document) given.raw

/-- What an application without an error has called, and what the tester has made of it. -/
inductive Applied (prior : Json) : Option Json → List (Event δ) → Prop
  | intro {schema : Schema} {before planned config newState : Value} {providerMeta : Config}
      {callbacks : List (Event δ)} {document : Json}
      (received : Received schema (payload prior) before)
      (dispatched : Dispatched schema before planned config providerMeta callbacks newState)
      (useful : newState = .null ↔ planned = .null)
      (read : readDocument (some (.encode newState)) = .ok document) :
      Applied prior (present document) callbacks

namespace Applied

variable {prior document : Json} {callbacks : List (Event δ)}

/-- A document that is not null has come of a plan that is not null. -/
theorem planned_ne_null {newState planned : Value} (useful : newState = .null ↔ planned = .null)
    (leaves : Leaves newState document) : planned ≠ .null := by
  rcases leaves with ⟨read, given⟩
  intro unplanned
  rw [useful.mpr unplanned, readDocument_null] at read
  exact given (Except.ok.inj read).symm

/-- With no state before and one after, the resource was created. -/
theorem created (applied : Applied .null (some document) callbacks) :
    ∃ request start result, callbacks = [.created request start result] ∧
      Leaves result.state.raw document := by
  generalize given : some document = found at applied
  cases applied with
  | intro received dispatched useful read =>
      rcases present_eq_some_iff.mp given.symm with ⟨rfl, nonnull⟩
      have absent := eq_null_of_received_null received
      have wanted := planned_ne_null useful ⟨read, nonnull⟩
      cases dispatched with
      | nothing _ unplanned => exact absurd unplanned wanted
      | created _ _ result => exact ⟨_, _, result, rfl, read, nonnull⟩
      | updated present => exact absurd absent present
      | deleted present => exact absurd absent present

/-- With a state before and one after, the resource was updated. -/
theorem updated (nonnull : prior ≠ .null) (applied : Applied prior (some document) callbacks) :
    ∃ request start result, callbacks = [.updated request start result] ∧
      Gives prior request.state ∧ Leaves result.state.raw document := by
  generalize given : some document = found at applied
  cases applied with
  | intro received dispatched useful read =>
      rcases present_eq_some_iff.mp given.symm with ⟨rfl, documentNonnull⟩
      have wanted := planned_ne_null useful ⟨read, documentNonnull⟩
      have before := ne_null_of_received nonnull received
      cases dispatched with
      | nothing absent => exact absurd absent before
      | created absent => exact absurd absent before
      | updated _ _ result => exact ⟨_, _, result, rfl, received, read, documentNonnull⟩
      | deleted _ unplanned => exact absurd unplanned wanted

/-- With a state before and none after, the resource was deleted. -/
theorem deleted (nonnull : prior ≠ .null) (applied : Applied prior none callbacks) :
    ∃ request start result, callbacks = [.deleted request start result] ∧
      Gives prior request.state := by
  generalize given : none = found at applied
  cases applied with
  | intro received dispatched useful read =>
      rw [present_eq_none_iff.mp given.symm] at read
      have unplanned := useful.mp (eq_null_of_readDocument read)
      have before := ne_null_of_received nonnull received
      cases dispatched with
      | nothing absent => exact absurd absent before
      | created absent => exact absurd absent before
      | updated _ wanted => exact absurd unplanned wanted
      | deleted _ _ result => exact ⟨_, _, result, rfl, received⟩

end Applied

theorem isLifecycle_of_dispatched {schema : Schema} {prior planned config newState : Value}
    {providerMeta : Config} {callbacks : List (Event δ)}
    (dispatched : Dispatched schema prior planned config providerMeta callbacks newState) :
    ∀ event ∈ callbacks, event.isLifecycle = true := by
  cases dispatched with
  | nothing => exact nofun
  | _ => exact List.forall_mem_singleton.mpr rfl

/-- Reading a document of a response makes no call. -/
theorem Passes.document_bind {β : Type} {stages : List Stage} {carried : Option DynamicValue}
    {property : β → List (Exchange δ) → Prop} {next : Json → Tester (StateM σ) δ β}
    {journaledNext : Json → Tester (JournalM σ δ) δ β}
    (later : ∀ found, readDocument carried = .ok found →
      Passes server stages property (next found) (journaledNext found) world) :
    Passes server stages property (document carried >>= next) (document carried >>= journaledNext)
      world := by
  have runs {τ : Type} (server : Server (StateM τ) δ) (world : τ) :
      StateT.run (run (document carried) server) world =
        ((readDocument carried, server), world) := by
    refine Prod.ext (outcome_run_document carried world) ?_
    cases carried with
    | none => rfl
    | some payload =>
        unfold document
        simp only
        split
        · rfl
        · cases Json.parseBytes payload.json <;> rfl
  exact .result_bind (runs server world) (fun _ => runs _ _) later

/-- Nor does decoding a document of the test. -/
theorem Passes.decode_bind {β : Type} {stages : List Stage} {type : AttributeType}
    {given? : Option Json} {property : β → List (Exchange δ) → Prop}
    {next : Value → Tester (StateM σ) δ β} {journaledNext : Value → Tester (JournalM σ δ) δ β}
    (later : ∀ found, Passes server stages property (next found) (journaledNext found) world) :
    Passes server stages property (decode type given? >>= next)
      (decode type given? >>= journaledNext) world := by
  have runs {τ : Type} (server : Server (StateM τ) δ) (world : τ) :
      StateT.run (run (decode type given?) server) world =
        (((given type given?).mapError TestError.value, server), world) := by
    cases given? with
    | none => rfl
    | some json =>
        change StateT.run (run (orFail (Value.ofJson type json)) server) world =
          (((Value.ofJson type json).mapError TestError.value, server), world)
        cases Value.ofJson type json <;> rfl
  exact .result_bind (runs server world) (fun _ => runs _ _) fun found _ => later found

/-- A plan looks at no resource and changes none. -/
theorem passes_plan (server : Server (StateM σ) δ) (typeName : String)
    (prior config : Option Json) (world : σ) :
    Passes server [.plan] (fun _ calls => Exchange.lifecycle calls = [])
      (plan typeName prior config) (plan typeName prior config) world := by
  unfold plan
  refine .get_bind ?_
  have named : server.journaled.provider.findResource? typeName =
      (server.provider.findResource? typeName).map
        (ResourceType.journaled server.provider.typeName) :=
    server.provider.findResource?_journaled typeName
  rw [named]
  cases server.provider.findResource? typeName with
  | none => exact .of_failure _ _ _ _
  | some served =>
      refine .decode_bind fun prior => .decode_bind fun config => ?_
      let request : Protocol.PlanChangeRequest := {
        typeName
        priorState := some (.encode prior)
        proposedNewState := some (.encode (served.schema.propose prior config))
        config := some (.encode config) }
      rcases server.noting_planning (some request) world with ⟨events, journals, quiet⟩
      refine .call_bind (.planResourceChange (some request)) .plannedChange
        (fun server => server.planResourceChange (some request))
        (fun server => server.planResourceChange (some request))
        rfl (fun _ => rfl) rfl rfl journals fun _ => .document_bind fun found _ => ?_
      refine .of_pure ?_ _
      unfold Exchange.lifecycle
      rw [List.flatMap_singleton]
      exact List.filter_eq_nil_iff.mpr fun event member => Bool.eq_false_iff.mp (quiet event member)

/-- An application runs the callback that the states call for. -/
theorem passes_apply (server : Server (StateM σ) δ) (typeName : String) (prior : Option Json)
    (planned : PlannedChange) (config : Json) (world : σ) :
    Passes server [.apply]
      (fun result calls => Applied (prior.getD .null) result (Exchange.lifecycle calls))
      (apply typeName prior planned config) (apply typeName prior planned config) world := by
  unfold apply
  let request : Protocol.ApplyChangeRequest := {
    typeName
    priorState := payload (prior.getD .null)
    plannedState := payload planned.plannedState
    config := payload config }
  rcases journals_application server world request with
    ⟨events, journals, applied⟩
  refine .call_bind (.applyResourceChange (some request)) .newState
    (fun server => server.applyResourceChange (some request))
    (fun server => server.applyResourceChange (some request))
    rfl (fun _ => rfl) rfl rfl journals fun fine => .document_bind fun found read => ?_
  rcases applied fine with ⟨schema, before, plannedValue, configValue, callbacks, newState,
    problems, rfl, received, dispatched, recorded, useful⟩
  refine .of_pure ?_ _
  rw [Exchange.lifecycle_singleton (isLifecycle_of_dispatched dispatched)]
  rw [recorded] at read
  exact .intro received dispatched useful read

/-- A refresh has a state that is there read. -/
theorem passes_read (server : Server (StateM σ) δ) (typeName : String) {current : Json}
    (nonnull : current ≠ .null) (world : σ) :
    Passes server [.refresh]
      (fun result calls => ∀ document, result = some document → ∃ request start left,
        Exchange.lifecycle calls = [.refreshed request start left] ∧
        Gives current request.state ∧ Leaves left.state.raw document)
      (read typeName current) (read typeName current) world := by
  unfold read
  let request : Protocol.ReadResourceRequest := { typeName, currentState := payload current }
  have given (schema : Schema) : ¬ Received schema request.currentState .null :=
    fun received => nonnull (eq_null_of_received received)
  rcases journals_refresh server world request given with
    ⟨events, journals, refreshed⟩
  refine .call_bind (.readResource (some request)) .newState
    (fun server => server.readResource (some request))
    (fun server => server.readResource (some request))
    rfl (fun _ => rfl) rfl rfl journals fun fine => .document_bind fun found read => ?_
  rcases refreshed fine with ⟨state, providerMeta, left, problems, rfl, received, recorded⟩
  refine .of_pure (fun document result => ?_) _
  rcases present_eq_some_iff.mp result with ⟨rfl, documentNonnull⟩
  rw [recorded] at read
  refine ⟨⟨state, providerMeta⟩, ⟨state, []⟩, left, ?_, received, read, documentNonnull⟩
  exact Exchange.lifecycle_singleton (List.forall_mem_singleton.mpr rfl)

end Tester
end ProviderKit
