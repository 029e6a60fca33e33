import ProviderKit.Proofs.Provider.Journal
import ProviderKit.Proofs.Server.Application
import ProviderKit.Proofs.Value.Parts

/-!
# One callback for each application

A planned change is applied by one callback, and which one it is depends on the prior and the
planned state only: nothing is called when both are null.  `Dispatched` lists the cases, with what
the callback is handed and the state that is recorded when it is done.

What is recorded is of use whenever the response reports no error: nothing in it is unknown, and
there is a state exactly where one was planned.  A resource that could not be deleted is not lost
either, since the callback starts with the prior state and an error keeps what it leaves.
-/

namespace ProviderKit

variable {σ δ : Type}

/-- The callbacks an application runs and the state it records, for decoded values and the
metadata of the calling module. -/
inductive Dispatched (schema : Schema) (prior planned config : Value) (providerMeta : Config) :
    List (Event δ) → Value → Prop
  | nothing (absent : prior = .null) (unplanned : planned = .null) :
      Dispatched schema prior planned config providerMeta [] .null
  | created (absent : prior = .null) (wanted : planned ≠ .null) (result : StateResponse) :
      Dispatched schema prior planned config providerMeta
        [.created ⟨⟨schema, config⟩, ⟨schema, planned⟩, providerMeta⟩ ⟨⟨schema, planned⟩, []⟩
          result]
        result.state.raw
  | updated (present : prior ≠ .null) (wanted : planned ≠ .null) (result : StateResponse) :
      Dispatched schema prior planned config providerMeta
        [.updated ⟨⟨schema, config⟩, ⟨schema, planned⟩, ⟨schema, prior⟩, providerMeta⟩
          ⟨⟨schema, planned⟩, []⟩ result]
        result.state.raw
  | deleted (present : prior ≠ .null) (unplanned : planned = .null) (result : StateResponse) :
      Dispatched schema prior planned config providerMeta
        [.deleted ⟨⟨schema, prior⟩, providerMeta⟩ ⟨⟨schema, prior⟩, []⟩ result]
        (if result.diagnostics.hasError then result.state.raw else .null)

namespace Server

variable {server : Server (StateM σ) δ} {resource : Resource (StateM σ)} {world : σ}
  {prior planned config newState : Value} {before problems : Diagnostics}

/-- An instance that answers a call was made once, with the data of the server. -/
theorem journals_resource_found {typeName : String}
    (found : (outcome (server.resource typeName) world).1 = some resource) :
    Journals (Prod.map (Option.map Resource.journaled) id) (server.resource typeName)
      (server.journaled.resource typeName) world
      [.resourceConfigured typeName server.providerData
        (outcome (server.resource typeName) world).2] := by
  have journals := server.journals_resource typeName world
  cases served : server.provider.findResource? typeName with
  | none =>
      unfold Server.resource instantiate at found
      rw [served] at found
      cases found
  | some type =>
      have named : type.typeName server.provider.typeName = typeName := by
        have matching := List.find?_some served
        exact beq_iff_eq.mp matching
      rw [served, Option.toList_some, List.map_singleton, named] at journals
      exact journals

/-! ## The callback -/

/-- A change runs one callback, or none when there is nothing before and after it. -/
theorem journals_applyChange (resource : Resource (StateM σ)) (before : Diagnostics)
    (prior planned config : Value) (providerMeta : Config) (world : σ) :
    ∃ callbacks : List (Event δ),
      Journals id (applyChange resource before prior planned config providerMeta)
        (applyChange resource.journaled before prior planned config providerMeta) world callbacks ∧
      Dispatched resource.schema prior planned config providerMeta callbacks
        (outcome (applyChange resource before prior planned config providerMeta) world).1 := by
  change JournalsThat (fun result callbacks =>
    Dispatched resource.schema prior planned config providerMeta callbacks result.1) id
    (applyChange resource before prior planned config providerMeta)
    (applyChange resource.journaled before prior planned config providerMeta) world
  refine .ite (fun unplanned => .ite (fun absent => ?_) fun present => .noted_bind ?_)
    fun wanted => .ite (fun absent => .noted_bind ?_) fun present => .noted_bind ?_
  all_goals simp only [Value.isNull_iff] at *
  · exact .of_pure id (.nothing absent unplanned) world
  · exact .of_pure id (.deleted present unplanned _) _
  · exact .of_pure id (.created absent wanted _) _
  · exact .of_pure id (.updated present wanted _) _

/-! ## The checks behind the callback -/

theorem hasError_andThen (diagnostics further : Diagnostics) :
    (andThen diagnostics further).hasError = (diagnostics.hasError || further.hasError) := by
  unfold andThen
  split
  · next failed => rw [failed, Bool.true_or]
  · exact hasError_append diagnostics further

/-- Every unknown value is an error. -/
theorem hasError_unknownAfter_iff (operation : String) (value : Value) :
    (unknownAfter operation value).hasError = false ↔ value.isFullyKnown = true := by
  have isError (path : Path) (summary detail : String) :
      (Diagnostic.attributeError path summary detail).isError = true := rfl
  rw [← Value.unknownPathsFrom_eq_nil_iff value []]
  unfold unknownAfter Diagnostics.hasError Value.unknownPaths
  rw [List.any_map, List.any_eq_false, List.eq_nil_iff_forall_not_mem]
  exact forall₂_congr fun path _ => by simp [isError]

/-- A creation or an update without an error has given a state. -/
theorem state_of_producedState {operation callback : String} {response : StateResponse}
    (fine : (producedState operation callback before response).2.hasError = false) :
    (producedState operation callback before response).1 ≠ .null := by
  intro absent
  have isNull : response.state.isNull = true := Value.isNull_iff.mpr absent
  have missing : Diagnostics.hasError [missingState operation callback] = true := rfl
  unfold producedState at fine
  simp only [isNull, if_true, hasError_andThen, missing, Bool.or_true] at fine
  cases fine

/-- Without an error there is a state afterwards exactly when one was planned. -/
theorem applyChange_eq_null_iff {providerMeta : Config}
    (fine : (outcome (applyChange resource before prior planned config providerMeta)
      world).2.hasError = false) :
    (outcome (applyChange resource before prior planned config providerMeta) world).1 = .null ↔
      planned = .null := by
  unfold applyChange at fine ⊢
  by_cases unplanned : planned.isNull = true
  · simp only [if_pos unplanned] at fine ⊢
    refine iff_of_true ?_ (Value.isNull_iff.mp unplanned)
    by_cases absent : prior.isNull = true
    · simp only [if_pos absent, outcome_pure]
    · simp only [if_neg absent, outcome_bind, outcome_pure] at fine ⊢
      rw [hasError_append, Bool.or_eq_false_iff] at fine
      rw [fine.2]
      rfl
  · simp only [if_neg unplanned] at fine ⊢
    refine iff_of_false ?_ (mt Value.isNull_iff.mpr unplanned)
    by_cases absent : prior.isNull = true
    · simp only [if_pos absent, outcome_bind, outcome_pure] at fine ⊢
      exact state_of_producedState fine
    · simp only [if_neg absent, outcome_bind, outcome_pure] at fine ⊢
      exact state_of_producedState fine

/-! ## The application -/

/-- The application of decoded values runs what `Dispatched` says. -/
theorem journals_applied (resource : Resource (StateM σ)) (before : Diagnostics)
    (prior planned config : Value) (providerMeta : Config) (world : σ) :
    let response := outcome (applied resource before prior planned config providerMeta) world
    ∃ (callbacks : List (Event δ)) (newState : Value),
      Journals id (applied resource before prior planned config providerMeta)
        (applied resource.journaled before prior planned config providerMeta) world callbacks ∧
      Dispatched resource.schema prior planned config providerMeta callbacks newState ∧
      response.state = some (.encode newState) ∧
      (Diagnostics.hasError (response.diagnostics.map Diagnostic.ofWire) = false →
        newState.isFullyKnown = true ∧ (newState = .null ↔ planned = .null)) := by
  rcases journals_applyChange resource before prior planned config providerMeta world with
    ⟨callbacks, journals, dispatched⟩
  refine ⟨callbacks, _, journals.map fun _ => rfl, dispatched, rfl, fun fine => ?_⟩
  change Diagnostics.hasError ((Diagnostics.toWire (andThen
    (outcome (applyChange resource before prior planned config providerMeta) world).2
    (unknownAfter "apply" (outcome (applyChange resource before prior planned config providerMeta)
      world).1))).map Diagnostic.ofWire) = false at fine
  rw [hasError_ofWire_toWire, hasError_andThen, Bool.or_eq_false_iff] at fine
  exact ⟨(hasError_unknownAfter_iff _ _).mp fine.2, applyChange_eq_null_iff fine.1⟩

variable {request : Protocol.ApplyChangeRequest}

/-- An application whose payloads decode makes an instance and applies the decoded values. -/
theorem journals_applyResourceChange {callbacks : List (Event δ)}
    (found : (outcome (server.resource request.typeName) world).1 = some resource)
    (decodes : server.ApplyDecodes resource.schema request prior planned config)
    (journals : let lookup := (outcome (server.resource request.typeName) world).2
      let providerMeta := (server.decodeMeta request.providerMeta).1
      Journals id (applied resource lookup prior planned config providerMeta)
        (applied resource.journaled lookup prior planned config providerMeta)
        (worldAfter (server.resource request.typeName) world) callbacks) :
    Journals id (server.applyResourceChange (some request))
      (server.journaled.applyResourceChange (some request)) world
      (.resourceConfigured request.typeName server.providerData
        (outcome (server.resource request.typeName) world).2 :: callbacks) := by
  -- The server with a journal makes an instance of its own, for which the payloads decode again.
  intro journal
  have configured := journals_resource_found found
  have foundAgain : (outcome (server.journaled.resource request.typeName) (world, journal)).1 =
      some resource.journaled := by
    rw [configured.outcome_eq]
    exact congrArg (Option.map Resource.journaled) found
  have decodesAgain : server.journaled.ApplyDecodes (resource.journaled (δ := δ)).schema request
      prior planned config :=
    ⟨decodes.prior, decodes.planned, decodes.config, decodes.metadata⟩
  have plain := run_applyResourceChange decodes found
  rw [run_applyResourceChange decodesAgain foundAgain, configured.outcome_eq,
    configured.worldAfter_eq]
  refine (journals _).trans ?_
  rw [List.append_assoc, List.singleton_append]
  exact congrArg (fun run => (run.1, (run.2, journal ++ _ :: callbacks))) plain.symm

/-- An application whose payloads decode runs exactly one callback of the resource, or none when
there is nothing before and after it, and reports no success with a state that is of no use. -/
theorem application_dispatches_once
    (found : (outcome (server.resource request.typeName) world).1 = some resource)
    (decodes : server.ApplyDecodes resource.schema request prior planned config) :
    let lookup := (outcome (server.resource request.typeName) world).2
    let response := outcome (server.applyResourceChange (some request)) world
    ∃ callbacks newState,
      Journals id (server.applyResourceChange (some request))
        (server.journaled.applyResourceChange (some request)) world
        (.resourceConfigured request.typeName server.providerData lookup :: callbacks) ∧
      Dispatched resource.schema prior planned config
        (server.decodeMeta request.providerMeta).1 callbacks newState ∧
      response.state = some (.encode newState) ∧
      (Diagnostics.hasError (response.diagnostics.map Diagnostic.ofWire) = false →
        newState.isFullyKnown = true ∧ (newState = .null ↔ planned = .null)) := by
  intro lookup response
  let reached := worldAfter (server.resource request.typeName) world
  let providerMeta := (server.decodeMeta request.providerMeta).1
  rcases journals_applied (δ := δ) resource lookup prior planned config providerMeta reached with
    ⟨callbacks, newState, journals, dispatched, recorded, useful⟩
  have same : response = outcome (applied resource lookup prior planned config providerMeta)
      reached := congrArg Prod.fst (run_applyResourceChange decodes found)
  exact ⟨callbacks, newState, journals_applyResourceChange found decodes journals, dispatched,
    same ▸ recorded, same ▸ useful⟩

/-- Rules that are planned where there are none are created. -/
theorem application_dispatches_once_modes :
    let server : Server (StateM Unit) Unit := ofSchema "modes" modeSchema
    let planned := modeRules [.string "udp", .null]
    let request : Protocol.ApplyChangeRequest :=
      { typeName := "modes", plannedState := some (.encode planned),
        config := some (.encode planned) }
    let response := outcome (server.applyResourceChange (some request)) ()
    ∃ given result,
      Journals id (server.applyResourceChange (some request))
        (server.journaled.applyResourceChange (some request)) ()
        [.resourceConfigured "modes" none [], .created given ⟨⟨modeSchema, planned⟩, []⟩ result] ∧
      response.state = some (.encode result.state.raw) ∧
      (Diagnostics.hasError (response.diagnostics.map Diagnostic.ofWire) = false →
        result.state.raw.isFullyKnown = true) := by
  intro server planned request response
  rcases modeRules_travel with ⟨_, travels, _⟩
  have answered := resource_ofSchema (σ := Unit) (δ := Unit) "modes" modeSchema ()
  rcases (serves_ofSchema "modes" modeSchema).answered () with ⟨resource, found⟩
  have sameSchema : resource.schema = modeSchema :=
    ((serves_ofSchema "modes" modeSchema).offers () resource found).1
  have decodes : server.ApplyDecodes resource.schema request .null planned planned := by
    rw [sameSchema]
    exact ⟨fun _ => rfl, travels.holds, travels.holds, server.decodeMeta_none⟩
  rcases application_dispatches_once found decodes with
    ⟨callbacks, newState, journals, dispatched, recorded, useful⟩
  rw [congrArg Prod.snd answered] at journals
  rw [sameSchema] at dispatched
  have wanted : planned ≠ .null := nofun
  cases dispatched with
  | nothing _ unplanned => exact absurd unplanned wanted
  | created _ _ result => exact ⟨_, result, journals, recorded, fun fine => (useful fine).1⟩
  | updated present => exact absurd rfl present
  | deleted present => exact absurd rfl present

end Server
end ProviderKit
