import ProviderKit.Proofs.Server.Planning
import ProviderKit.Testing.Tester

/-!
# What a tester makes of a plan

A tester asks for a plan once and reads the response.  The server is the same afterwards,
and the result is a matter of the response alone.
-/

namespace ProviderKit
namespace Tester

variable {σ δ : Type} {server : Server (StateM σ) δ} {typeName : String}

/-- The value of a document of a test, null when there is none. -/
def given (type : AttributeType) : Option Json → Except ValueError Value
  | none => .ok .null
  | some json => Value.ofJson type json

/-- The document that a response carries. -/
def readDocument : Option DynamicValue → Except TestError Json
  | none => .ok .null
  | some payload =>
    if payload.json.isEmpty then .ok .null
    else
      match Json.parseBytes payload.json with
      | .ok json => .ok json
      | .error cause => .error (.provider (.serialization cause.message))

/-- The plan that a response carries, or why there is none. -/
def readPlan (response : Protocol.PlanChangeResponse) : Except TestError PlannedChange :=
  let found : Diagnostics := response.diagnostics.map Diagnostic.ofWire
  if found.hasError then .error (.diagnostics found)
  else do
    let plannedState ← readDocument response.plannedState
    .ok ⟨plannedState, response.requiresReplace.map Path.ofWire, found⟩

/-! ## Running an operation step by step -/

theorem outcome_run_get (world : σ) :
    outcome (run (get : Tester (StateM σ) δ (Server (StateM σ) δ)) server) world =
      (.ok server, server) :=
  rfl

/-- The next step runs on the server that a successful step leaves. -/
theorem run_bind {α β : Type} (step : Tester (StateM σ) δ α) (next : α → Tester (StateM σ) δ β)
    (server : Server (StateM σ) δ) :
    run (step >>= next) server = run step server >>= fun answer => match answer.1 with
      | .ok result => run (next result) answer.2
      | .error failure => pure (.error failure, answer.2) := by
  unfold run
  rw [ExceptT.run_bind, StateT.run_bind]
  refine bind_congr fun answer => ?_
  rcases answer with ⟨result, after⟩
  cases result <;> rfl

theorem outcome_run_bind_ok {α β : Type} {step : Tester (StateM σ) δ α} {result : α}
    {after : Server (StateM σ) δ} {world : σ}
    (success : outcome (run step server) world = (.ok result, after))
    (next : α → Tester (StateM σ) δ β) :
    outcome (run (step >>= next) server) world =
      outcome (run (next result) after) (worldAfter (run step server) world) := by
  rw [run_bind, outcome_bind, success]

theorem outcome_run_bind_error {α β : Type} {step : Tester (StateM σ) δ α} {failure : TestError}
    {after : Server (StateM σ) δ} {world : σ}
    (failed : outcome (run step server) world = (.error failure, after))
    (next : α → Tester (StateM σ) δ β) :
    outcome (run (step >>= next) server) world = (.error failure, after) := by
  rw [run_bind, outcome_bind, failed]
  rfl

theorem outcome_run_ask {α : Type} (question : Server (StateM σ) δ → StateM σ α) (world : σ) :
    outcome (run (ask question) server) world = (.ok (outcome (question server) world), server) :=
  rfl

theorem outcome_run_check (wire : List WireDiagnostic) (world : σ) :
    outcome (run (check wire) server) world =
      (if Diagnostics.hasError (wire.map Diagnostic.ofWire) then
          .error (.diagnostics (wire.map Diagnostic.ofWire))
        else .ok (wire.map Diagnostic.ofWire), server) := by
  unfold check
  simp only
  split <;> rfl

theorem outcome_run_document (payload : Option DynamicValue) (world : σ) :
    outcome (run (document payload) server) world = (readDocument payload, server) := by
  cases payload with
  | none => rfl
  | some payload =>
      unfold document readDocument
      simp only
      split
      · rfl
      · cases Json.parseBytes payload.json <;> rfl

theorem outcome_run_decode {type : AttributeType} {document : Option Json} {value : Value}
    (isGiven : given type document = .ok value) (world : σ) :
    outcome (run (decode type document) server) world = (.ok value, server) := by
  cases document with
  | none =>
      cases isGiven
      rfl
  | some json =>
      change outcome (run (orFail (Value.ofJson type json)) server) world = _
      rw [show Value.ofJson type json = .ok value from isGiven]
      rfl

theorem worldAfter_run_decode (type : AttributeType) (document : Option Json) (world : σ) :
    worldAfter (run (decode type document) server) world = world := by
  cases document with
  | none => rfl
  | some json =>
      change worldAfter (run (orFail (Value.ofJson type json)) server) world = world
      cases Value.ofJson type json <;> rfl

/-- The last steps of a plan only read the response. -/
private theorem outcome_run_readPlan (response : Protocol.PlanChangeResponse) (world : σ) :
    outcome (run (do
      let diagnostics ← check response.diagnostics
      let plannedState ← document response.plannedState
      pure (PlannedChange.mk plannedState (response.requiresReplace.map Path.ofWire) diagnostics))
        server) world = (readPlan response, server) := by
  have checked : outcome (run (check response.diagnostics) server) world = _ :=
    outcome_run_check response.diagnostics world
  unfold readPlan
  simp only
  split at checked
  · next failed =>
    rw [outcome_run_bind_error checked, if_pos failed]
  · next fine =>
    rw [outcome_run_bind_ok checked, if_neg fine]
    have carried : outcome (run (document response.plannedState) server)
        (worldAfter (run (check response.diagnostics) server) world) = _ :=
      outcome_run_document response.plannedState _
    cases read : readDocument response.plannedState with
    | error failure =>
        rw [read] at carried
        rw [outcome_run_bind_error carried]
        rfl
    | ok found =>
        rw [read] at carried
        rw [outcome_run_bind_ok carried]
        rfl

/-- A plan asks the server for a plan of the values of its documents, and reads the
response. -/
theorem outcome_plan {served : ResourceType (StateM σ) δ}
    (described : server.provider.findResource? typeName = some served)
    {priorDocument configDocument : Option Json} {prior config : Value}
    (priorGiven : given served.schema.valueType priorDocument = .ok prior)
    (configGiven : given served.schema.valueType configDocument = .ok config) (world : σ) :
    outcome (run (plan typeName priorDocument configDocument) server) world =
      (readPlan (outcome (server.planResourceChange
        (some (Server.planRequest typeName prior (served.schema.propose prior config) config)))
          world), server) := by
  have start : worldAfter (run (get : Tester (StateM σ) δ (Server (StateM σ) δ)) server) world =
      world := rfl
  unfold plan
  rw [outcome_run_bind_ok (outcome_run_get world)]
  simp only [described]
  rw [outcome_run_bind_ok (outcome_run_decode priorGiven _),
    outcome_run_bind_ok (outcome_run_decode configGiven _),
    outcome_run_bind_ok (outcome_run_ask _ _), worldAfter_run_decode, worldAfter_run_decode, start]
  exact outcome_run_readPlan _ _

end Tester
end ProviderKit
