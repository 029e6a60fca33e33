import ProviderKit.Planning.Proposal
import ProviderKit.Server.Answer
import ProviderKit.Testing.Error

/-!
# Testers

A tester drives a provider through a server as a host would, with documents in place of
payloads.  Every operation fails when its response has an error, and otherwise gives
the warnings, the plan or the new state.  The server is the state of the test: what one
operation configures, the next one uses.

For a plan the tester proposes the new state itself, as a host does.
-/

namespace ProviderKit

/-- Operations on a server, which may fail.  A failure keeps the server as it is. -/
abbrev Tester (m : Type → Type) (δ : Type) := ExceptT TestError (StateT (Server m δ) m)

/-- A plan without errors. -/
structure PlannedChange where
  /-- The planned state, null when the resource is to be destroyed. -/
  plannedState : Json
  /-- The attributes whose change replaces the resource. -/
  requiresReplace : List Path
  /-- The warnings. -/
  diagnostics : Diagnostics

namespace PlannedChange

def isDestroy (plan : PlannedChange) : Bool :=
  plan.plannedState.isNull

def requiresReplacement (plan : PlannedChange) : Bool :=
  !plan.requiresReplace.isEmpty

/-- Whether the value at a path of the plan is unknown. -/
def isUnknown (plan : PlannedChange) (path : Path) : Bool :=
  match (Value.ofUntyped plan.plannedState).getAt path with
  | .ok value => value.isUnknown
  | .error _ => false

end PlannedChange

namespace Tester

variable {m : Type → Type} [Monad m] {δ : Type}

/-- Run an operation on a server. -/
def run {α : Type} (operation : Tester m δ α) (server : Server m δ) :
    m (Except TestError α × Server m δ) :=
  StateT.run (ExceptT.run operation) server

def payload (json : Json) : Option DynamicValue :=
  some (.ofText json.compact)

/-- Give a response to a question about the server. -/
def ask {α : Type} (question : Server m δ → m α) : Tester m δ α := do
  let server ← get
  let response ← (question server : StateT (Server m δ) m α)
  pure response

/-- The diagnostics of a response, unless one of them is an error. -/
def check (wire : List WireDiagnostic) : Tester m δ Diagnostics :=
  let found : Diagnostics := wire.map Diagnostic.ofWire
  if found.hasError then throw (.diagnostics found) else pure found

/-- Fail with an error of the test's own values. -/
def orFail {α : Type} : Except ValueError α → Tester m δ α
  | .ok result => pure result
  | .error error => throw (.value error)

/-- The document of a payload; null when it is absent or has no text. -/
def document : Option DynamicValue → Tester m δ Json
  | none => pure .null
  | some payload =>
    if payload.json.isEmpty then pure .null
    else
      match Json.parseBytes payload.json with
      | .ok json => pure json
      | .error cause => throw (.provider (.serialization cause.message))

/-- A state, unless it is null. -/
def present (json : Json) : Option Json :=
  if json.isNull then none else some json

def schema : Tester m δ Protocol.SchemaResponse := do
  let response ← ask Server.getProviderSchema
  let _ ← check response.diagnostics
  pure response

/-- Validate a configuration of the provider.  The result is the warnings. -/
def validateProviderConfig (config : Json) : Tester m δ Diagnostics := do
  let response ← ask fun server => server.validateProviderConfig (some ⟨payload config⟩)
  check response.diagnostics

/-- Configure the provider as a host of a version does.  The result is the warnings. -/
def configure (hostVersion : String) (config : Json) : Tester m δ Diagnostics := do
  let (response, after) ← ask fun server =>
    server.configureProvider (some ⟨hostVersion, payload config⟩)
  set after
  check response.diagnostics

def stop : Tester m δ Unit := do
  let response ← ask Server.stopProvider
  if response.error.isEmpty then pure () else throw (.provider (.reported response.error))

/-- Validate a configuration of a resource.  The result is the warnings. -/
def validateResourceConfig (typeName : String) (config : Json) : Tester m δ Diagnostics := do
  let response ← ask fun server =>
    server.validateResourceConfig (some ⟨typeName, payload config⟩)
  check response.diagnostics

/-- Validate a configuration of a data source.  The result is the warnings. -/
def validateDataSourceConfig (typeName : String) (config : Json) : Tester m δ Diagnostics := do
  let response ← ask fun server =>
    server.validateDataSourceConfig (some ⟨typeName, payload config⟩)
  check response.diagnostics

/-- Decode a document of the test, null when there is none. -/
def decode (type : AttributeType) : Option Json → Tester m δ Value
  | none => pure .null
  | some json => orFail (Value.ofJson type json)

/-- Plan a change from a prior state to a configuration, either of which may be
missing. -/
def plan (typeName : String) (prior config : Option Json) : Tester m δ PlannedChange := do
  let server ← get
  match server.provider.findResource? typeName with
  | none => throw (.provider (.unknownResource typeName))
  | some served =>
    let type := served.schema.valueType
    let prior ← decode type prior
    let config ← decode type config
    let proposed := served.schema.propose prior config
    let response ← ask fun server => server.planResourceChange (some {
      typeName
      priorState := some (.encode prior)
      proposedNewState := some (.encode proposed)
      config := some (.encode config) })
    let diagnostics ← check response.diagnostics
    let plannedState ← document response.plannedState
    pure { plannedState, requiresReplace := response.requiresReplace.map Path.ofWire, diagnostics }

/-- Apply a plan.  The result is the new state; none when the resource is gone. -/
def apply (typeName : String) (prior : Option Json) (plan : PlannedChange) (config : Json) :
    Tester m δ (Option Json) := do
  let response ← ask fun server => server.applyResourceChange (some {
    typeName
    priorState := payload (prior.getD .null)
    plannedState := payload plan.plannedState
    config := payload config })
  let _ ← check response.diagnostics
  return present (← document response.state)

/-- Refresh a resource.  The result is none when it no longer exists. -/
def read (typeName : String) (current : Json) : Tester m δ (Option Json) := do
  let response ← ask fun server => server.readResource (some {
    typeName, currentState := payload current })
  let _ ← check response.diagnostics
  return present (← document response.state)

def importState (typeName id : String) : Tester m δ Json := do
  let response ← ask fun server => server.importResourceState (some ⟨typeName, id⟩)
  let _ ← check response.diagnostics
  document (response.imported.head?.bind Protocol.ImportedResource.state)

def upgradeState (typeName : String) (version : Int64) (state : Json) : Tester m δ Json := do
  let response ← ask fun server => server.upgradeResourceState (some {
    typeName, version, rawState := some state.compact.toUTF8 })
  let _ ← check response.diagnostics
  document response.state

def readDataSource (typeName : String) (config : Json) : Tester m δ Json := do
  let response ← ask fun server => server.readDataSource (some {
    typeName, config := payload config })
  let _ ← check response.diagnostics
  document response.state

/-- A state that an operation must have given. -/
def expectState (operation : String) : Option Json → Tester m δ Json
  | some state => pure state
  | none =>
    throw (.diagnostics [.error "Missing State" ("no state was returned by " ++ operation)])

/-- Plan and apply a creation, and refresh.  The result is the final state. -/
def lifecycleCreate (typeName : String) (config : Json) : Tester m δ Json := do
  let planned ← plan typeName none (some config)
  let created ← expectState "create" (← apply typeName none planned config)
  expectState "read after create" (← read typeName created)

/-- Plan and apply an update, and refresh.  The result is the final state. -/
def lifecycleUpdate (typeName : String) (prior config : Json) : Tester m δ Json := do
  let planned ← plan typeName (some prior) (some config)
  let updated ← expectState "update" (← apply typeName (some prior) planned config)
  expectState "read after update" (← read typeName updated)

/-- Plan and apply a deletion. -/
def lifecycleDelete (typeName : String) (current : Json) : Tester m δ Unit := do
  let planned ← plan typeName (some current) none
  match ← apply typeName (some current) planned .null with
  | none => pure ()
  | some _ =>
    throw (.diagnostics [
      .error "Resource Still Exists" "state was not removed after delete"])

/-- Create, update and delete a resource.  The result is the state before the deletion. -/
def lifecycle (typeName : String) (config updated : Json) : Tester m δ Json := do
  let created ← lifecycleCreate typeName config
  let state ← lifecycleUpdate typeName created updated
  lifecycleDelete typeName state
  pure state

end Tester
end ProviderKit
