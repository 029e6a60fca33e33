import ProviderKit.Proofs.Server.Findings

/-!
# Refreshing a state

A host that asks for a refresh gives away the state it has stored and goes on with what it gets
back.  `KeepsState` lists what stands in the way of a refresh; then the payload of the request is
the payload of the response, whatever it is, and `read` is not called.

In all other cases `read` is called once, with the decoded state, and what it leaves is encoded,
also behind an error of its own.  A callback that leaves the response alone gives back a payload
that need not be the one that came, but that is decoded to the same value.
-/

namespace ProviderKit
namespace Server

variable {σ δ : Type} {server : Server (StateM σ) δ} {resource : Resource (StateM σ)} {world : σ}
  {typeName : String} {request : Protocol.ReadResourceRequest}

/-- Why a refresh gives the state back as it came. -/
inductive KeepsState (server : Server (StateM σ) δ) (request : Protocol.ReadResourceRequest)
    (world : σ) : Prop
  | unknownType (unserved : server.provider.findResource? request.typeName = none)
  | unconfigured {served : ResourceType (StateM σ) δ}
      (found : server.provider.findResource? request.typeName = some served)
      (failed : (outcome (served.configure server.providerData) world).2.hasError = true)
  | undecodedState {resource : Resource (StateM σ)}
      (made : (outcome (server.resource request.typeName) world).1 = some resource)
      (undecoded : ∀ value, ¬ Received resource.schema request.currentState value)
  | undecodedMeta {schema : Schema} (asked : server.provider.metaSchema = some schema)
      (undecoded : ∀ value, ¬ Received schema request.providerMeta value)
  | absent {resource : Resource (StateM σ)}
      (made : (outcome (server.resource request.typeName) world).1 = some resource)
      (null : Received resource.schema request.currentState .null)

/-! ## What stands in the way -/

/-- There is no instance for a type that is unknown, and none behind a failed configuration. -/
theorem resource_eq_none_iff :
    (outcome (server.resource typeName) world).1 = none ↔
      server.provider.findResource? typeName = none ∨
        ∃ served, server.provider.findResource? typeName = some served ∧
          (outcome (served.configure server.providerData) world).2.hasError = true := by
  unfold Server.resource instantiate
  cases server.provider.findResource? typeName with
  | none => exact iff_of_true rfl (.inl rfl)
  | some served =>
      simp only [outcome_bind, outcome_pure, ite_eq_left_iff, reduceCtorEq, imp_false,
        Bool.not_eq_true, Bool.not_eq_false, false_or, Option.some.injEq, exists_eq_left']

/-- A payload has a problem exactly when it stands for no value. -/
theorem payloadProblem?_isSome_iff {schema : Schema} {what : String}
    {payload : Option DynamicValue} :
    (payloadProblem? schema what payload).isSome = true ↔
      ∀ value, ¬ Received schema payload value := by
  constructor
  · intro problem value received
    rw [received.holds.payloadProblem?_eq_none what] at problem
    cases problem
  · intro undecoded
    refine Option.isSome_iff_ne_none.mpr fun none => ?_
    exact undecoded _ (payloadProblem?_eq_none_iff.mp none)

/-- The metadata of the calling module has a problem exactly when the provider asks for it and it
stands for no value. -/
theorem hasError_metaProblem?_iff {payload : Option DynamicValue} :
    Diagnostics.hasError (server.metaProblem? payload).toList = true ↔
      ∃ schema, server.provider.metaSchema = some schema ∧
        ∀ value, ¬ Received schema payload value := by
  unfold metaProblem?
  cases server.provider.metaSchema with
  | none => simp [Diagnostics.hasError]
  | some schema =>
      rw [Option.bind_some, hasError_payloadProblem?, payloadProblem?_isSome_iff]
      simp only [Option.some.injEq, exists_eq_left']

/-- Without an instance the state is kept. -/
theorem KeepsState.of_absent
    (absent : (outcome (server.resource request.typeName) world).1 = none) :
    server.KeepsState request world := by
  rcases resource_eq_none_iff.mp absent with unserved | ⟨served, found, failed⟩
  · exact .unknownType unserved
  · exact .unconfigured found failed

/-- With an instance the state is kept for an error in decoding, or because there is none. -/
theorem keepsState_iff
    (made : (outcome (server.resource request.typeName) world).1 = some resource) :
    server.KeepsState request world ↔
      ((outcome (server.resource request.typeName) world).2 ++
        (payloadProblem? resource.schema "current state" request.currentState).toList ++
        (server.metaProblem? request.providerMeta).toList).hasError = true ∨
      payloadValue resource.schema request.currentState = .null := by
  rw [hasError_append, hasError_append, resource_hasError made, Bool.false_or, Bool.or_eq_true,
    hasError_payloadProblem?, payloadProblem?_isSome_iff, hasError_metaProblem?_iff]
  have same {other : Resource (StateM σ)}
      (again : (outcome (server.resource request.typeName) world).1 = some other) :
      other = resource :=
    Option.some.inj (again.symm.trans made)
  constructor
  · intro keeps
    cases keeps with
    | unknownType unserved =>
        cases (resource_eq_none_iff.mpr (.inl unserved)).symm.trans made
    | unconfigured found failed =>
        cases (resource_eq_none_iff.mpr (.inr ⟨_, found, failed⟩)).symm.trans made
    | undecodedState again undecoded =>
        cases same again
        exact .inl (.inl undecoded)
    | undecodedMeta asked undecoded => exact .inl (.inr ⟨_, asked, undecoded⟩)
    | absent again null =>
        cases same again
        exact .inr null.holds.payloadValue_eq
  · rintro ((undecoded | ⟨schema, asked, undecoded⟩) | null)
    · exact .undecodedState made undecoded
    · exact .undecodedMeta asked undecoded
    · by_cases decoded : ∃ value, Received resource.schema request.currentState value
      · rcases decoded with ⟨value, received⟩
        cases received.holds.payloadValue_eq.symm.trans null
        exact .absent made received
      · exact .undecodedState made (not_exists.mp decoded)

/-- A state that decodes to something is read where the metadata decodes as well. -/
theorem reads_of_received {current : Value}
    (made : (outcome (server.resource request.typeName) world).1 = some resource)
    (received : Received resource.schema request.currentState current) (present : current ≠ .null)
    (understood : ∀ schema, server.provider.metaSchema = some schema →
      ∃ value, Received schema request.providerMeta value) : ¬ server.KeepsState request world := by
  rw [keepsState_iff made, received.holds.payloadProblem?_eq_none, received.holds.payloadValue_eq,
    hasError_append, hasError_append, resource_hasError made, Option.toList_none,
    Bool.or_eq_true, hasError_metaProblem?_iff]
  rintro ((⟨⟨⟩⟩ | ⟨schema, asked, undecoded⟩) | null)
  · rcases understood schema asked with ⟨value, received⟩
    exact undecoded value received
  · exact present null

/-! ## The call -/

/-- Making an instance is noted under the name that was asked for. -/
theorem journals_resource_named (server : Server (StateM σ) δ) (typeName : String) (world : σ) :
    Journals (Prod.map (Option.map Resource.journaled) id) (server.resource typeName)
      (server.journaled.resource typeName) world
      ((server.provider.findResource? typeName).toList.map fun _ =>
        .resourceConfigured typeName server.providerData
          (outcome (server.resource typeName) world).2) := by
  have journals := server.journals_resource typeName world
  cases found : server.provider.findResource? typeName with
  | none =>
      rw [found] at journals
      exact journals
  | some served =>
      have named : served.typeName server.provider.typeName = typeName :=
        beq_iff_eq.mp (List.find?_some found :)
      rw [found, Option.toList_some, List.map_singleton, named] at journals
      exact journals

/-- A refresh that something stands in the way of calls nothing behind the instance. -/
theorem readResource_of_keeps (keeps : server.KeepsState request world) :
    (outcome (server.readResource (some request)) world).state = request.currentState ∧
      Journals id (server.readResource (some request))
        (server.journaled.readResource (some request)) world
        ((server.provider.findResource? request.typeName).toList.map fun _ =>
          .resourceConfigured request.typeName server.providerData
            (outcome (server.resource request.typeName) world).2) := by
  let expected : List (Event δ) :=
    (server.provider.findResource? request.typeName).toList.map fun _ =>
      .resourceConfigured request.typeName server.providerData
        (outcome (server.resource request.typeName) world).2
  suffices kept : JournalsThat (fun response events =>
      response.state = request.currentState ∧ events = expected) id
      (server.readResource (some request)) (server.journaled.readResource (some request)) world by
    rcases kept with ⟨_, journals, same, rfl⟩
    exact ⟨same, journals⟩
  unfold readResource
  simp only [decodePayload_eq, decodeMeta_eq]
  refine .bind (server.journals_resource_named request.typeName world) ?_
  cases made : (outcome (server.resource request.typeName) world).1 with
  | none =>
      have absent : outcome (server.resource request.typeName) world = (none, _) :=
        Prod.ext made rfl
      rw [absent]
      exact .of_pure id ⟨rfl, List.append_nil _⟩ _
  | some resource =>
      have found : outcome (server.resource request.typeName) world = (some resource, _) :=
        Prod.ext made rfl
      have stops := (keepsState_iff made).mp keeps
      rw [← Value.isNull_iff, ← Bool.or_eq_true] at stops
      rw [found]
      refine .ite (fun _ => .of_pure id ⟨rfl, List.append_nil _⟩ _) fun goes => ?_
      exact absurd stops goes

/-- A refresh that nothing stands in the way of has the decoded state read once. -/
theorem readResource_of_reads
    (made : (outcome (server.resource request.typeName) world).1 = some resource)
    (reads : ¬ server.KeepsState request world) :
    let state : State := ⟨resource.schema, payloadValue resource.schema request.currentState⟩
    let asked : StateRequest := ⟨state, server.metaConfig request.providerMeta⟩
    let result := outcome (resource.read asked ⟨state, []⟩)
      (worldAfter (server.resource request.typeName) world)
    (outcome (server.readResource (some request)) world).state =
        some (.encode result.state.raw) ∧
      Journals id (server.readResource (some request))
        (server.journaled.readResource (some request)) world
        [.resourceConfigured request.typeName server.providerData
          (outcome (server.resource request.typeName) world).2,
          .refreshed asked ⟨state, []⟩ result] := by
  intro state asked result
  suffices called : JournalsThat (fun response events =>
      response.state = some (.encode result.state.raw) ∧
        events = [.resourceConfigured request.typeName server.providerData
          (outcome (server.resource request.typeName) world).2,
          .refreshed asked ⟨state, []⟩ result]) id
      (server.readResource (some request)) (server.journaled.readResource (some request)) world by
    rcases called with ⟨_, journals, same, rfl⟩
    exact ⟨same, journals⟩
  have found : outcome (server.resource request.typeName) world = (some resource, _) :=
    Prod.ext made rfl
  have stops := mt (keepsState_iff made).mpr reads
  rw [← Value.isNull_iff, ← Bool.or_eq_true] at stops
  unfold readResource
  simp only [decodePayload_eq, decodeMeta_eq]
  refine .bind (journals_resource_found made) ?_
  rw [found]
  refine .ite (fun kept => absurd kept stops) fun _ => .noted_bind ?_
  exact .of_pure id ⟨rfl, rfl⟩ _

/-- Where nothing stands in the way there is an instance, and a state that is not null. -/
theorem received_of_reads (reads : ¬ server.KeepsState request world) :
    ∃ resource, (outcome (server.resource request.typeName) world).1 = some resource ∧
      Received resource.schema request.currentState
        (payloadValue resource.schema request.currentState) ∧
      payloadValue resource.schema request.currentState ≠ .null := by
  cases made : (outcome (server.resource request.typeName) world).1 with
  | none => exact absurd (.of_absent made) reads
  | some resource =>
      refine ⟨resource, rfl, ?_, fun null => reads ((keepsState_iff made).mpr (.inr null))⟩
      by_contra undecoded
      refine reads (.undecodedState made fun value received => undecoded ?_)
      rw [received.holds.payloadValue_eq]
      exact received

/-- A received value that is encoded again decodes to itself. -/
theorem Received.decode_encode {schema : Schema} {payload : Option DynamicValue} {value : Value}
    (received : Received schema payload value) (wellFormed : schema.valueType.WellFormed)
    (readsBack : value.toJson.ReadsBack) :
    (DynamicValue.encode value).decode schema.valueType = .ok value := by
  rw [DynamicValue.decode_encode readsBack]
  cases received with
  | absent => exact Value.decodeAt_null _ _ []
  | empty => exact Value.decodeAt_null _ _ []
  | decoded success =>
      rcases DynamicValue.conforms_of_decode success with ⟨typed, distinct⟩
      exact (Value.decodeAt_toJson_iff typed wellFormed [] value).mpr ⟨distinct, rfl⟩

/-- A refresh gives the payload of the state back as it came, without a call of `read`, or has the
decoded state read once and encodes what is left of it.  What `read` leaves alone is decoded to the
same value again. -/
theorem refresh_keeps_or_reads (server : Server (StateM σ) δ)
    (request : Protocol.ReadResourceRequest) (world : σ) :
    let response := outcome (server.readResource (some request)) world
    let lookup := (outcome (server.resource request.typeName) world).2
    (server.KeepsState request world →
      response.state = request.currentState ∧
      Journals id (server.readResource (some request))
        (server.journaled.readResource (some request)) world
        ((server.provider.findResource? request.typeName).toList.map fun _ =>
          .resourceConfigured request.typeName server.providerData lookup)) ∧
    (¬ server.KeepsState request world →
      ∃ resource current, (outcome (server.resource request.typeName) world).1 = some resource ∧
        Received resource.schema request.currentState current ∧ current ≠ .null ∧
        let state : State := ⟨resource.schema, current⟩
        let asked : StateRequest := ⟨state, server.metaConfig request.providerMeta⟩
        let result := outcome (resource.read asked ⟨state, []⟩)
          (worldAfter (server.resource request.typeName) world)
        Journals id (server.readResource (some request))
          (server.journaled.readResource (some request)) world
          [.resourceConfigured request.typeName server.providerData lookup,
            .refreshed asked ⟨state, []⟩ result] ∧
        response.state = some (.encode result.state.raw) ∧
        (result.state = state → resource.schema.valueType.WellFormed →
          current.toJson.ReadsBack → ∃ payload, response.state = some payload ∧
            payload.decode resource.schema.valueType = .ok current)) := by
  intro response lookup
  refine ⟨readResource_of_keeps, fun reads => ?_⟩
  rcases received_of_reads reads with ⟨resource, made, received, present⟩
  refine ⟨resource, _, made, received, present, ?_⟩
  intro state asked result
  rcases readResource_of_reads made reads with ⟨encoded, journals⟩
  refine ⟨journals, encoded, fun leftAlone wellFormed readsBack => ⟨_, encoded, ?_⟩⟩
  change result.state = state at leftAlone
  change (DynamicValue.encode result.state.raw).decode _ = _
  rw [leftAlone]
  exact received.decode_encode wellFormed readsBack

/-- Rules come back as they were, and a payload that is not understood comes back byte for byte. -/
theorem refresh_keeps_or_reads_modes :
    let server : Server (StateM Unit) Unit := ofSchema "modes" modeSchema
    let current := modeRules [.string "udp", .null]
    let packed : DynamicValue := ⟨ByteArray.empty, "modes".toUTF8⟩
    let refreshed (payload : DynamicValue) := (outcome (server.readResource
      (some { typeName := "modes", currentState := some payload })) ()).state
    refreshed packed = some packed ∧
      ∃ payload, refreshed (.encode current) = some payload ∧
        payload.decode modeSchema.valueType = .ok current := by
  intro server current packed refreshed
  rcases modeRules_travel with ⟨_, travels, _⟩
  have answered := resource_ofSchema (σ := Unit) (δ := Unit) "modes" modeSchema ()
  have made := congrArg Prod.fst answered
  have problem : (payloadProblem? modeSchema "current state" (some packed)).isSome = true := rfl
  have unread : ∀ value, ¬ Received modeSchema (some packed) value :=
    payloadProblem?_isSome_iff.mp problem
  have received : Received modeSchema (some (.encode current)) current :=
    .decoded ((DynamicValue.decode_encode travels.readsBack _).trans travels.decodes)
  refine ⟨((refresh_keeps_or_reads server _ ()).1 (.undecodedState made unread)).1, ?_⟩
  have reads : ¬ server.KeepsState
      { typeName := "modes", currentState := some (.encode current) } () :=
    reads_of_received made received nofun nofun
  rcases (refresh_keeps_or_reads server _ ()).2 reads with
    ⟨resource, value, found, again, _, _, _, decodes⟩
  cases Option.some.inj (made.symm.trans found)
  cases again.holds.payloadValue_eq.symm.trans received.holds.payloadValue_eq
  exact decodes rfl modeSchema_wellFormed.valueType travels.readsBack

end Server
end ProviderKit
