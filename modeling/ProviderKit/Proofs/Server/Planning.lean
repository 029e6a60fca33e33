import ProviderKit.Proofs.Diagnostic.Wire
import ProviderKit.Proofs.Provider.World
import ProviderKit.Proofs.Value.Wire
import ProviderKit.Server.Lifecycle

/-!
# The answer to a plan request

A resource that leaves plans alone has its plans made by the schema.  When the payloads of a
request decode, the response carries what `plannedChange` gives for the decoded values, and
no problem but those of the defaults and the warnings of the configuration.
-/

namespace ProviderKit
namespace Server

variable {σ δ : Type} {server : Server (StateM σ) δ} {typeName : String} {schema : Schema}

/-- Whichever resource answers calls for a type has the schema and leaves plans alone. -/
def Offers (server : Server (StateM σ) δ) (typeName : String) (schema : Schema) : Prop :=
  ∀ world resource, (outcome (server.resource typeName) world).1 = some resource →
    resource.schema = schema ∧ resource.KeepsPlans

/-- The type is served with the schema, and in every world a resource is configured without
an error, has the schema, and leaves plans alone. -/
structure Serves (server : Server (StateM σ) δ) (typeName : String) (schema : Schema) : Prop where
  described : ∃ served, server.provider.findResource? typeName = some served ∧
    served.schema = schema
  answered : ∀ world, ∃ resource, (outcome (server.resource typeName) world).1 = some resource
  offers : server.Offers typeName schema

/-- A server with one resource, whose callbacks return what they are handed. -/
def ofSchema (typeName : String) (schema : Schema) : Server (StateM σ) δ where
  provider := { Provider.plain "test" "" (pure ⟨.empty 0, []⟩) (fun _ => pure ⟨none, []⟩) with
    resources := [ServedType.plain (fun _ => typeName) schema
      (Resource.plain schema (fun _ response => pure response) (fun _ response => pure response)
        (fun _ response => pure response) (fun _ response => pure response))] }

/-- An instance is only handed on when its configuration reported no error. -/
theorem instantiate_hasError {ι : Type} {served : Option (ServedType (StateM σ) δ ι)}
    {unknown : ProviderError} {world : σ} {inst : ι}
    (made : (outcome (server.instantiate served unknown) world).1 = some inst) :
    (outcome (server.instantiate served unknown) world).2.hasError = false := by
  unfold instantiate at made ⊢
  cases served with
  | none => cases made
  | some served =>
      simp only [outcome_bind, outcome_pure] at made ⊢
      split at made
      · cases made
      · next fine => exact Bool.eq_false_iff.mpr fine

theorem resource_hasError {world : σ} {resource : Resource (StateM σ)}
    (found : (outcome (server.resource typeName) world).1 = some resource) :
    (outcome (server.resource typeName) world).2.hasError = false :=
  instantiate_hasError found

/-- Where no instance is handed on, the reason is an error. -/
theorem hasError_of_resource_eq_none {world : σ}
    (absent : (outcome (server.resource typeName) world).1 = none) :
    (outcome (server.resource typeName) world).2.hasError = true := by
  unfold Server.resource instantiate at absent ⊢
  cases served : server.provider.findResource? typeName with
  | none => rfl
  | some served =>
      simp only [served] at absent ⊢
      rw [outcome_bind] at absent ⊢
      simp only [outcome_pure] at absent ⊢
      split at absent
      · assumption
      · cases absent

/-- The resource of a server for a schema answers every call for its type, and without a
warning. -/
theorem resource_ofSchema (typeName : String) (schema : Schema) (world : σ) :
    outcome ((ofSchema typeName schema : Server (StateM σ) δ).resource typeName) world =
      (some (Resource.plain schema (fun _ response => pure response)
        (fun _ response => pure response) (fun _ response => pure response)
        (fun _ response => pure response)), []) := by
  have found : (ofSchema typeName schema : Server (StateM σ) δ).provider.findResource? typeName =
      some _ := List.find?_cons_of_pos (beq_self_eq_true typeName)
  unfold resource instantiate
  rw [found]
  rfl

theorem serves_ofSchema (typeName : String) (schema : Schema) :
    (ofSchema typeName schema : Server (StateM σ) δ).Serves typeName schema := by
  have found : (ofSchema typeName schema : Server (StateM σ) δ).provider.findResource? typeName =
      some _ := List.find?_cons_of_pos (beq_self_eq_true typeName)
  refine ⟨⟨_, found, rfl⟩, fun world => ⟨_, congrArg Prod.fst (resource_ofSchema ..)⟩, ?_⟩
  intro world resource isResource
  rw [resource_ofSchema] at isResource
  cases isResource
  exact ⟨rfl, fun _ _ _ => rfl⟩

/-- The payload decodes against a schema, without a problem to report. -/
def Holds (schema : Schema) (payload : Option DynamicValue) (value : Value) : Prop :=
  ∀ what, decodePayload schema what payload = (value, [])

/-- The value of a payload conforms to the schema. -/
theorem Holds.conforms {payload : Option DynamicValue} {value : Value}
    (holds : Holds schema payload value) :
    Value.HasType schema.valueType value ∧ value.DistinctSets := by
  have decoded := holds ""
  unfold decodePayload at decoded
  split at decoded
  · cases decoded
    exact ⟨.null _, .null⟩
  · split at decoded
    · next success =>
      cases decoded
      exact DynamicValue.conforms_of_decode success
    · cases decoded

/-- The value is received as it is sent. -/
structure Travels (schema : Schema) (value : Value) : Prop where
  readsBack : value.toJson.ReadsBack
  decodes : Value.ofJson schema.valueType value.toJson = .ok value

theorem Travels.holds {value : Value} (travels : Travels schema value) :
    Holds schema (some (.encode value)) value := by
  intro what
  unfold decodePayload
  simp only [DynamicValue.decode_encode travels.readsBack, travels.decodes]

/-- All payloads of a plan request decode. -/
structure PlanDecodes (server : Server (StateM σ) δ) (schema : Schema)
    (request : Protocol.PlanChangeRequest) (prior proposed config : Value) : Prop where
  prior : Holds schema request.priorState prior
  proposed : Holds schema request.proposedNewState proposed
  config : Holds schema request.config config
  metadata : (server.decodeMeta request.providerMeta).2 = []

def planRequest (typeName : String) (prior proposed config : Value) :
    Protocol.PlanChangeRequest where
  typeName := typeName
  priorState := some (.encode prior)
  proposedNewState := some (.encode proposed)
  config := some (.encode config)

theorem decodeMeta_none (server : Server (StateM σ) δ) : (server.decodeMeta none).2 = [] := by
  unfold decodeMeta
  cases server.provider.metaSchema <;> rfl

theorem planDecodes_planRequest (server : Server (StateM σ) δ) (typeName : String)
    {prior proposed config : Value} (priorTravels : Travels schema prior)
    (proposedTravels : Travels schema proposed) (configTravels : Travels schema config) :
    server.PlanDecodes schema (planRequest typeName prior proposed config) prior proposed config :=
  ⟨priorTravels.holds, proposedTravels.holds, configTravels.holds, server.decodeMeta_none⟩

/-- The response for a planned change, behind the diagnostics of the configuration. -/
def planResponse (before : Diagnostics) (change : Completion (Value × Paths)) :
    Protocol.PlanChangeResponse where
  plannedState := some (.encode change.result.1)
  requiresReplace := change.result.2.toList.map Path.toWire
  diagnostics := Diagnostics.toWire (before ++ change.diagnostics)

/-- A decodable request is answered with the change that the schema plans. -/
theorem Offers.planResourceChange (offers : server.Offers typeName schema)
    {request : Protocol.PlanChangeRequest} {prior proposed config : Value}
    (named : request.typeName = typeName)
    (decodes : server.PlanDecodes schema request prior proposed config) {world : σ}
    {resource : Resource (StateM σ)}
    (found : (outcome (server.resource typeName) world).1 = some resource) :
    outcome (server.planResourceChange (some request)) world =
      planResponse (outcome (server.resource typeName) world).2
        (plannedChange schema prior config proposed) := by
  rcases offers world resource found with ⟨rfl, keeps⟩
  subst named
  have lookup := resource_hasError found
  unfold Server.planResourceChange
  simp only [outcome_bind]
  generalize outcome (server.resource request.typeName) world = answer at found lookup ⊢
  rcases answer with ⟨_, before⟩
  cases found
  simp only [decodes.prior _, decodes.proposed _, decodes.config _, decodes.metadata,
    List.append_nil]
  rw [if_neg (Bool.eq_false_iff.mp lookup)]
  split
  · rw [outcome_bind, outcome_pure, outcome_pure, List.append_nil]
    rfl
  · rw [outcome_bind, keeps, outcome_pure, List.append_nil]
    rfl

/-! ## Responses without an error -/

/-- A payload decodes, or it is reported as an error. -/
theorem holds_or_hasError (schema : Schema) (payload : Option DynamicValue) :
    (∃ value, Holds schema payload value) ∨
      ∀ what, (decodePayload schema what payload).2.hasError = true := by
  cases payload with
  | none => exact .inl ⟨.null, fun _ => rfl⟩
  | some payload =>
      cases decoded : payload.decode schema.valueType with
      | ok value =>
          refine .inl ⟨value, fun what => ?_⟩
          simp only [decodePayload, decoded]
      | error problem =>
          refine .inr fun what => ?_
          simp only [decodePayload, decoded]
          rfl

theorem hasError_append (left right : Diagnostics) :
    Diagnostics.hasError (left ++ right) = (left.hasError || right.hasError) :=
  List.any_append

theorem hasError_ofWire_toWire (diagnostics : Diagnostics) :
    Diagnostics.hasError (diagnostics.toWire.map Diagnostic.ofWire) = diagnostics.hasError := by
  rw [Diagnostics.ofWire_toWire]

/-- A plan adds no error to those of the defaults. -/
theorem Offers.hasError_planResourceChange (offers : server.Offers typeName schema)
    {request : Protocol.PlanChangeRequest} {prior proposed config : Value}
    (named : request.typeName = typeName)
    (decodes : server.PlanDecodes schema request prior proposed config) {world : σ}
    {resource : Resource (StateM σ)}
    (found : (outcome (server.resource typeName) world).1 = some resource) :
    Diagnostics.hasError ((outcome (server.planResourceChange (some request))
      world).diagnostics.map Diagnostic.ofWire) =
        (plannedChange schema prior config proposed).diagnostics.hasError := by
  rw [offers.planResourceChange named decodes found, planResponse, hasError_ofWire_toWire,
    hasError_append, resource_hasError found, Bool.false_or]

/-- Without an error in the response a resource has answered. -/
theorem exists_resource {request : Protocol.PlanChangeRequest} (named : request.typeName = typeName)
    {world : σ} (fine : Diagnostics.hasError ((outcome (server.planResourceChange (some request))
      world).diagnostics.map Diagnostic.ofWire) = false) :
    ∃ resource, (outcome (server.resource typeName) world).1 = some resource := by
  subst named
  cases found : (outcome (server.resource request.typeName) world).1 with
  | some resource => exact ⟨resource, rfl⟩
  | none =>
      have failed := hasError_of_resource_eq_none found
      unfold Server.planResourceChange at fine
      simp only [outcome_bind] at fine
      generalize outcome (server.resource request.typeName) world = answer at found failed fine
      rcases answer with ⟨_, before⟩
      cases found
      rw [outcome_pure, hasError_ofWire_toWire, failed] at fine
      cases fine

/-- Without an error in the response all payloads decode. -/
theorem Offers.planDecodes (offers : server.Offers typeName schema)
    {request : Protocol.PlanChangeRequest} (named : request.typeName = typeName)
    (metadata : (server.decodeMeta request.providerMeta).2 = []) {world : σ}
    {resource : Resource (StateM σ)}
    (found : (outcome (server.resource typeName) world).1 = some resource)
    (fine : Diagnostics.hasError ((outcome (server.planResourceChange (some request))
      world).diagnostics.map Diagnostic.ofWire) = false) :
    ∃ prior proposed config, server.PlanDecodes schema request prior proposed config := by
  rcases offers world resource found with ⟨rfl, _⟩
  subst named
  by_contra undecoded
  apply Bool.eq_false_iff.mp fine
  have problems :
      (decodePayload resource.schema "prior state" request.priorState).2.hasError = true ∨
      (decodePayload resource.schema "proposed new state" request.proposedNewState).2.hasError =
        true ∨
      (decodePayload resource.schema "configuration" request.config).2.hasError = true := by
    rcases holds_or_hasError resource.schema request.priorState with ⟨prior, first⟩ | problem
    · rcases holds_or_hasError resource.schema request.proposedNewState with
        ⟨proposed, second⟩ | problem
      · rcases holds_or_hasError resource.schema request.config with ⟨config, third⟩ | problem
        · exact absurd ⟨prior, proposed, config, first, second, third, metadata⟩ undecoded
        · exact .inr (.inr (problem _))
      · exact .inr (.inl (problem _))
    · exact .inl (problem _)
  unfold Server.planResourceChange
  simp only [outcome_bind]
  generalize outcome (server.resource request.typeName) world = answer at found ⊢
  rcases answer with ⟨_, before⟩
  cases found
  simp only
  rw [if_pos, outcome_pure, hasError_ofWire_toWire]
  all_goals
    simp only [hasError_append, Bool.or_eq_true]
    tauto

end Server
end ProviderKit
