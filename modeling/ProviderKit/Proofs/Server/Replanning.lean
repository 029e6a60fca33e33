import ProviderKit.Proofs.Planning.Settled
import ProviderKit.Proofs.Server.Reports
import ProviderKit.Proofs.Value.KnownEquality

/-!
# Plans of planned states

A host may propose what has been planned.  The same change is planned then, and for the same
reasons: the planned state is settled under both passes, so that it comes out as it went in, and
what is planned is compared with the prior state with the same result as before.  The comparison is
where this could fail, because it is made before anything becomes unknown.  But a planned state with
something unknown does not equal a known prior state, and one without is the proposal with its
defaults.

What a host proposes is what it has read, however, and numbers are not always read as they were
written.  A planned state that is read as another one may be planned differently.
-/

namespace ProviderKit

namespace Server

variable {schema : Schema} {prior config proposed : Value}

/-- The problems of a pass over a planned value. -/
def passProblems (schema : Schema) (pass : PlanPass) (config planned : Value) : Diagnostics :=
  (schema.complete pass config planned).diagnostics

/-- A proposal that is the prior state once its defaults are there. -/
theorem plannedChange_of_unchanged (present : proposed.isNull = false)
    (unchanged : (schema.block.fill .defaults config proposed == prior) = true) :
    plannedChange schema prior config proposed =
      ⟨(schema.block.fill .defaults config proposed, .empty),
        passProblems schema .defaults config proposed⟩ := by
  unfold plannedChange
  rw [if_neg (Bool.eq_false_iff.mp present)]
  exact if_pos unchanged

/-- Any other proposal. -/
theorem plannedChange_of_changed (present : proposed.isNull = false)
    (changed : (schema.block.fill .defaults config proposed == prior) = false) :
    let withDefaults := schema.block.fill .defaults config proposed
    let completed := schema.block.fill .unknowns config withDefaults
    plannedChange schema prior config proposed =
      ⟨(completed, if prior.isNull then .empty else schema.replacements prior completed),
        passProblems schema .defaults config proposed ++
          passProblems schema .unknowns config withDefaults⟩ := by
  unfold plannedChange
  rw [if_neg (Bool.eq_false_iff.mp present)]
  exact if_neg (Bool.eq_false_iff.mp changed)

theorem passProblems_fill (wellFormed : schema.block.WellFormed) {pass other : PlanPass}
    {planned : Value} (typed : Value.HasType schema.valueType planned) :
    passProblems schema pass config (schema.block.fill other config planned) =
      passProblems schema pass config planned :=
  wellFormed.complete_fill_diagnostics typed []

/-- Computed attributes that became unknown do not make a planned value equal to a known prior
state. -/
theorem eq_prior_of_completed_eq_prior (wellFormed : schema.block.WellFormed) {planned : Value}
    (typed : Value.HasType schema.valueType planned) (priorDistinct : prior.DistinctSets)
    (priorKnown : prior.isFullyKnown = true)
    (distinct : (schema.block.fill .unknowns config planned).DistinctSets)
    (equal : (schema.block.fill .unknowns config planned == prior) = true) :
    (planned == prior) = true := by
  have turned : prior.same (schema.block.fill .unknowns config planned) = true := by
    rw [priorDistinct.same_comm priorKnown distinct]
    exact equal
  have known := priorDistinct.isFullyKnown_of_same priorKnown distinct turned
  have unchanged : schema.block.fill .unknowns config planned = planned :=
    wellFormed.settled_of_isFullyKnown typed known
  rwa [unchanged] at equal

/-- A proposal that was the prior state is so again with its defaults. -/
theorem plannedChange_fill_defaults (wellFormed : schema.block.WellFormed)
    (typed : Value.HasType schema.valueType proposed) (present : proposed.isNull = false)
    (unchanged : (schema.block.fill .defaults config proposed == prior) = true) :
    plannedChange schema prior config (schema.block.fill .defaults config proposed) =
      plannedChange schema prior config proposed := by
  have settled : schema.block.Settled .defaults config
      (schema.block.fill .defaults config proposed) := wellFormed.settled_fill typed (.inl rfl)
  have filledPresent : (schema.block.fill .defaults config proposed).isNull = false :=
    (schema.block.isNull_fill ..).trans present
  have again : (schema.block.fill .defaults config
      (schema.block.fill .defaults config proposed) == prior) = true := by
    rw [settled]
    exact unchanged
  rw [plannedChange_of_unchanged filledPresent again, plannedChange_of_unchanged present unchanged,
    settled, passProblems_fill wellFormed typed]

/-- A proposal that was not the prior state is not when it has been completed either, and no pass
has anything left to do. -/
theorem plannedChange_fill_unknowns (wellFormed : schema.block.WellFormed)
    (typed : Value.HasType schema.valueType proposed) (present : proposed.isNull = false)
    (changed : (schema.block.fill .defaults config proposed == prior) = false)
    (priorDistinct : prior.DistinctSets) (priorKnown : prior.isFullyKnown = true)
    (distinct : (schema.block.fill .unknowns config
      (schema.block.fill .defaults config proposed)).DistinctSets) :
    plannedChange schema prior config
        (schema.block.fill .unknowns config (schema.block.fill .defaults config proposed)) =
      plannedChange schema prior config proposed := by
  let withDefaults := schema.block.fill .defaults config proposed
  let completed := schema.block.fill .unknowns config withDefaults
  have defaultsTyped : Value.HasType schema.valueType withDefaults :=
    wellFormed.hasType_fill config typed
  have completedPresent : completed.isNull = false :=
    (schema.block.isNull_fill ..).trans ((schema.block.isNull_fill ..).trans present)
  have defaultsSettled : schema.block.fill .defaults config completed = completed :=
    wellFormed.settled_fill defaultsTyped (.inr (wellFormed.settled_fill typed (.inl rfl)))
  have unknownsSettled : schema.block.fill .unknowns config completed = completed :=
    wellFormed.settled_fill defaultsTyped (.inl rfl)
  have again : (schema.block.fill .defaults config completed == prior) = false := by
    rw [defaultsSettled]
    refine Bool.eq_false_iff.mpr fun equal => Bool.eq_false_iff.mp changed ?_
    exact eq_prior_of_completed_eq_prior wellFormed defaultsTyped priorDistinct priorKnown
      distinct equal
  have defaultsProblems : passProblems schema .defaults config completed =
      passProblems schema .defaults config proposed :=
    (passProblems_fill wellFormed defaultsTyped).trans (passProblems_fill wellFormed typed)
  have unknownsProblems : passProblems schema .unknowns config completed =
      passProblems schema .unknowns config withDefaults :=
    passProblems_fill wellFormed defaultsTyped
  rw [plannedChange_of_changed completedPresent again, plannedChange_of_changed present changed]
  simp only [defaultsSettled, unknownsSettled, defaultsProblems, unknownsProblems]
  rfl

/-- The change planned for a planned state is the change it was planned by. -/
theorem plannedChange_plannedState (wellFormed : schema.block.WellFormed)
    (typed : Value.HasType schema.valueType proposed) (priorDistinct : prior.DistinctSets)
    (priorKnown : prior.isFullyKnown = true)
    (distinct : (plannedState schema prior proposed config).DistinctSets) :
    plannedChange schema prior config (plannedState schema prior proposed config) =
      plannedChange schema prior config proposed := by
  cases absent : proposed.isNull with
  | true =>
      have unplanned : plannedChange schema prior config proposed = .unchanged (proposed, .empty) :=
        if_pos absent
      rw [plannedState, unplanned]
      exact unplanned
  | false =>
      cases compared : schema.block.fill .defaults config proposed == prior with
      | true =>
          have planned : plannedState schema prior proposed config =
              schema.block.fill .defaults config proposed := by
            rw [plannedState, plannedChange_of_unchanged absent compared]
          rw [planned]
          exact plannedChange_fill_defaults wellFormed typed absent compared
      | false =>
          have planned : plannedState schema prior proposed config = schema.block.fill .unknowns
              config (schema.block.fill .defaults config proposed) := by
            rw [plannedState, plannedChange_of_changed absent compared]
          rw [planned] at distinct ⊢
          exact plannedChange_fill_unknowns wellFormed typed absent compared priorDistinct
            priorKnown distinct

/-! ## Plan requests -/

section Requests

variable {σ δ : Type} {server : Server (StateM σ) δ} {typeName : String}

/-- Without an error in the response every payload of a plan request decodes. -/
theorem Offers.planDecodes_payloadValue (offers : server.Offers typeName schema)
    {request : Protocol.PlanChangeRequest} (named : request.typeName = typeName) {world : σ}
    (fine : Diagnostics.hasError ((outcome (server.planResourceChange (some request))
      world).diagnostics.map Diagnostic.ofWire) = false) :
    server.PlanDecodes schema request (payloadValue schema request.priorState)
      (payloadValue schema request.proposedNewState) (payloadValue schema request.config) := by
  rcases exists_resource named fine with ⟨resource, found⟩
  rcases offers world resource found with ⟨rfl, _⟩
  subst named
  rcases server.follows_planResourceChange (some request) with ⟨_, _, _, _, _, course⟩
  have approached : outcome (server.approach (.planResourceChange (some request))) world =
      (some resource.schema, (outcome (server.resource request.typeName) world).2) := by
    simp only [approach, resourceSchema, outcome_bind, outcome_pure, found, Option.map_some]
  rw [approached] at course
  have decoded := course.hasError_conversions fine
  have received {what : String} {payload : Option DynamicValue}
      (carried : (what, payload) ∈ (Protocol.Request.planResourceChange (some request)).payloads) :
      Holds resource.schema payload (payloadValue resource.schema payload) :=
    (received_of_decoded decoded carried).holds
  exact ⟨received (.head _), received (.tail _ (.head _)), received (.tail _ (.tail _ (.head _))),
    decodeMeta_of_decoded decoded⟩

/-- The request that proposes what the response to another one has planned. -/
def replanRequest (request : Protocol.PlanChangeRequest) (response : Protocol.PlanChangeResponse) :
    Protocol.PlanChangeRequest :=
  { request with proposedNewState := response.plannedState }

/-- A planned state that is read as it was planned is planned again, for the same reasons, by every
call that a resource answers. -/
theorem Offers.replans_planned_state (offers : server.Offers typeName schema)
    (wellFormed : schema.block.WellFormed) {request : Protocol.PlanChangeRequest}
    (named : request.typeName = typeName)
    (priorKnown : (payloadValue schema request.priorState).isFullyKnown = true) {world : σ}
    (fine : Diagnostics.hasError ((outcome (server.planResourceChange (some request))
      world).diagnostics.map Diagnostic.ofWire) = false)
    (reads : Received schema
      (outcome (server.planResourceChange (some request)) world).plannedState
      (plannedState schema (payloadValue schema request.priorState)
        (payloadValue schema request.proposedNewState) (payloadValue schema request.config)))
    {world' : σ} {resource : Resource (StateM σ)}
    (answered : (outcome (server.resource typeName) world').1 = some resource) :
    let response := outcome (server.planResourceChange (some request)) world
    let again := outcome (server.planResourceChange (some (replanRequest request response))) world'
    again.plannedState = response.plannedState ∧
      again.requiresReplace = response.requiresReplace ∧
      Diagnostics.hasError (again.diagnostics.map Diagnostic.ofWire) = false := by
  intro response again
  have decodes := offers.planDecodes_payloadValue named fine
  rcases exists_resource named fine with ⟨first, found⟩
  have againDecodes : server.PlanDecodes schema (replanRequest request response) _ _ _ :=
    ⟨decodes.prior, reads.holds, decodes.config, decodes.metadata⟩
  have same := plannedChange_plannedState wellFormed
    decodes.proposed.conforms.1 decodes.prior.conforms.2 priorKnown reads.holds.conforms.2
  have planned : response = planResponse _ _ := offers.planResourceChange named decodes found
  have againNamed : (replanRequest request response).typeName = typeName := named
  have plannedAgain : again = planResponse _ _ :=
    offers.planResourceChange againNamed againDecodes answered
  rw [same] at plannedAgain
  refine ⟨?_, ?_, ?_⟩
  · rw [plannedAgain, planned]
    rfl
  · rw [plannedAgain, planned]
    rfl
  · rw [offers.hasError_planResourceChange named decodes found] at fine
    rw [offers.hasError_planResourceChange againNamed againDecodes answered, same, fine]

end Requests

/-- A mode that has been filled in stays as it is. -/
theorem replans_planned_modes :
    let server : Server (StateM Unit) Unit := ofSchema "modes" modeSchema
    let config := modeRules [.string "udp", .null]
    let request := planRequest "modes" .null config config
    let response := outcome (server.planResourceChange (some request)) ()
    let again := outcome (server.planResourceChange (some (replanRequest request response))) ()
    response.plannedState = some (.encode (modeRules [.string "udp", .string "tcp"])) ∧
      again.plannedState = response.plannedState ∧
      again.requiresReplace = response.requiresReplace ∧
      Diagnostics.hasError (again.diagnostics.map Diagnostic.ofWire) = false := by
  intro server config request response again
  rcases modeRules_travel with ⟨null, configTravels, _, readsBack, _⟩
  have serves : server.Serves "modes" modeSchema := serves_ofSchema "modes" modeSchema
  rcases serves.answered () with ⟨resource, found⟩
  have decodes := server.planDecodes_planRequest "modes" null configTravels configTravels
  have noError : (plannedChange modeSchema .null config config).diagnostics.hasError = false := rfl
  have fine := (serves.offers.hasError_planResourceChange rfl decodes found).trans noError
  have planned : (plannedChange modeSchema .null config config).result.1 =
      modeRules [.string "udp", .string "tcp"] := rfl
  have emitted : response.plannedState =
      some (.encode (modeRules [.string "udp", .string "tcp"])) := by
    rw [← planned]
    exact congrArg Protocol.PlanChangeResponse.plannedState
      (serves.offers.planResourceChange rfl decodes found)
  refine ⟨emitted, serves.offers.replans_planned_state modeSchema_wellFormed rfl ?_ fine ?_ found⟩
  · rw [decodes.prior.payloadValue_eq]
    rfl
  · rw [decodes.prior.payloadValue_eq, decodes.proposed.payloadValue_eq,
      decodes.config.payloadValue_eq, plannedState, planned]
    exact emitted ▸ .decoded ((DynamicValue.decode_encode readsBack _).trans rfl)

/-! A resource with a ratio, and a ratio that is read as its neighbour. -/

def ratioSchema : Schema where
  version := 0
  block := ⟨[("ratio", { type := .float64, flags := { optional := true } })], [], none⟩

def ratio (number : Binary64) : Value :=
  .object [("ratio", .number (.float number))]

/-- The number that is printed as 0.9107357991643505. -/
def printedRatio : Binary64 :=
  ⟨false, 8203178811499080, 1021, by decide⟩

/-- The number that is read from what is printed, the one before. -/
def readRatio : Binary64 :=
  ⟨false, 8203178811499079, 1021, by decide⟩

/-- A configuration of the resource, as a host writes it. -/
def ratioText : String :=
  "\x7b\"ratio\":0.9107357991643506\x7d"

def documentRatio? : Json.Reading Json → Option Binary64
  | .ok (.object [("ratio", .number (.float number))]) => some number
  | _ => none

theorem eq_of_documentRatio? {reading : Json.Reading Json} {number : Binary64}
    (found : documentRatio? reading = some number) : reading = .ok (ratio number).toJson := by
  unfold documentRatio? at found
  split at found
  · cases found
    rfl
  · cases found

theorem parse_ratioText : Json.parse ratioText = .ok (ratio printedRatio).toJson :=
  eq_of_documentRatio? (by decide +kernel)

theorem parse_printedRatio :
    Json.parse (ratio printedRatio).toJson.compact = .ok (ratio readRatio).toJson :=
  eq_of_documentRatio? (by decide +kernel)

theorem printed_differently : (DynamicValue.encode (ratio readRatio)).json ≠
    (DynamicValue.encode (ratio printedRatio)).json := by
  decide +kernel

theorem decode_ratio {text : String} {number : Binary64}
    (parsed : Json.parse text = .ok (ratio number).toJson) :
    (DynamicValue.ofText text).decode ratioSchema.valueType = .ok (ratio number) :=
  (DynamicValue.decode_ofText parsed ratioSchema.valueType).trans rfl

/-- A ratio is planned as it is proposed, without a problem. -/
theorem plannedChange_ratio (configured number : Binary64) :
    plannedChange ratioSchema .null (ratio configured) (ratio number) =
      ⟨(ratio number, .empty), []⟩ :=
  rfl

theorem plans_ratio {server : Server (StateM Unit) Unit}
    (serves : server.Serves "scale" ratioSchema) {request : Protocol.PlanChangeRequest}
    {configured number : Binary64} (named : request.typeName = "scale")
    (decodes : server.PlanDecodes ratioSchema request .null (ratio number) (ratio configured)) :
    let response := outcome (server.planResourceChange (some request)) ()
    response.plannedState = some (.encode (ratio number)) ∧
      Diagnostics.hasError (response.diagnostics.map Diagnostic.ofWire) = false := by
  rcases serves.answered () with ⟨resource, found⟩
  have planned := serves.offers.planResourceChange named decodes found
  have fine := serves.offers.hasError_planResourceChange named decodes found
  rw [plannedChange_ratio] at planned fine
  exact ⟨congrArg Protocol.PlanChangeResponse.plannedState planned, fine⟩

/-- A planned ratio that is read as another one is planned as that one. -/
theorem replans_ratio {server : Server (StateM Unit) Unit}
    (serves : server.Serves "scale" ratioSchema) {request : Protocol.PlanChangeRequest}
    {configured number read : Binary64} (named : request.typeName = "scale")
    (decodes : server.PlanDecodes ratioSchema request .null (ratio number) (ratio configured))
    (reads : Holds ratioSchema (some (.encode (ratio number))) (ratio read)) :
    let response := outcome (server.planResourceChange (some request)) ()
    let again := outcome (server.planResourceChange (some (replanRequest request response))) ()
    response.plannedState = some (.encode (ratio number)) ∧
      Diagnostics.hasError (response.diagnostics.map Diagnostic.ofWire) = false ∧
      again.plannedState = some (.encode (ratio read)) ∧
      Diagnostics.hasError (again.diagnostics.map Diagnostic.ofWire) = false := by
  intro response again
  have first := plans_ratio serves named decodes
  have againDecodes : server.PlanDecodes ratioSchema (replanRequest request response) .null
      (ratio read) (ratio configured) := by
    refine ⟨decodes.prior, ?_, decodes.config, decodes.metadata⟩
    rw [replanRequest, first.1]
    exact reads
  exact ⟨first.1, first.2, plans_ratio serves named againDecodes⟩

/-- The planned state that is printed is read as one with the number before, which is printed in
another way when it is planned again. -/
theorem replanned_ratio_differs :
    let server : Server (StateM Unit) Unit := ofSchema "scale" ratioSchema
    let request : Protocol.PlanChangeRequest :=
      { typeName := "scale"
        proposedNewState := some (.ofText ratioText)
        config := some (.ofText ratioText) }
    let response := outcome (server.planResourceChange (some request)) ()
    let again := outcome (server.planResourceChange (some (replanRequest request response))) ()
    server.Serves "scale" ratioSchema ∧ ratioSchema.block.WellFormed ∧
      Holds ratioSchema request.priorState .null ∧
      Diagnostics.hasError (response.diagnostics.map Diagnostic.ofWire) = false ∧
      (∃ payload, response.plannedState = some payload ∧
        payload.decode ratioSchema.valueType = .ok (ratio readRatio)) ∧
      Diagnostics.hasError (again.diagnostics.map Diagnostic.ofWire) = false ∧
      again.plannedState ≠ response.plannedState := by
  intro server request response again
  have serves : server.Serves "scale" ratioSchema := serves_ofSchema "scale" ratioSchema
  have wellFormed : ratioSchema.block.WellFormed :=
    .intro (by simp [Entries.Sorted, ratioSchema]) (by simp [Entries.Sorted, ratioSchema])
      (by simp [ratioSchema]) (by simp [ratioSchema, AttributeType.WellFormed.float64])
      (by simp [ratioSchema])
  have prior : Holds ratioSchema none .null := Received.absent.holds
  have proposed : Holds ratioSchema (some (.ofText ratioText)) (ratio printedRatio) :=
    Received.holds (.decoded (decode_ratio parse_ratioText))
  have decoded : (DynamicValue.encode (ratio printedRatio)).decode ratioSchema.valueType =
      .ok (ratio readRatio) := decode_ratio parse_printedRatio
  have decodes : server.PlanDecodes ratioSchema request .null (ratio printedRatio)
      (ratio printedRatio) := ⟨prior, proposed, proposed, server.decodeMeta_none⟩
  have reads : Holds ratioSchema (some (.encode (ratio printedRatio))) (ratio readRatio) :=
    Received.holds (.decoded decoded)
  rcases replans_ratio serves rfl decodes reads with ⟨planned, fine, plannedAgain, fineAgain⟩
  refine ⟨serves, wellFormed, prior, fine, ⟨_, planned, decoded⟩, fineAgain, ?_⟩
  rw [plannedAgain, planned]
  exact fun same => printed_differently (congrArg DynamicValue.json (Option.some.inj same))

end Server
end ProviderKit
