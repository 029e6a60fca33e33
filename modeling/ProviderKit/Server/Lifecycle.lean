import ProviderKit.Planning.Completion
import ProviderKit.Planning.Replacement
import ProviderKit.Server.Basic

/-!
# The lifecycle of resources

Stored state is brought to the current schema, refreshed, and changed in two steps:
a plan, and its application.  A plan and an application start by decoding all
payloads, and an error there ends the call before any callback of the resource.

A change of a resource is a creation when there is no prior state, a deletion when
there is no planned state, and an update otherwise.
-/

namespace ProviderKit
namespace Server

variable {m : Type → Type} [Monad m] {δ : Type}

def storedStateSummary : String :=
  "Unable to Read Previously Saved State for UpgradeResourceState"

/-- A value, when there is one, and the problems found. -/
abbrev Outcome := Option Value × Diagnostics

/-- Stored state under the current schema.  State of the current version is decoded
leniently, and the callback is called for any other version. -/
def upgradeStored (resource : Resource m) (version : Int64) (stored : ByteArray) : m Outcome :=
  match Json.parseBytes stored with
  | .error cause =>
    pure (none, [.error storedStateSummary
      ("There was an error reading the saved resource state as JSON.\n\n" ++ cause.message)])
  | .ok json =>
    if version < 0 then
      pure (none, [.error "Invalid Schema Version"
        ("The stored state has a negative schema version (" ++ decimalText version.toInt ++
          ").")])
    else if version.toUInt64 = resource.schema.version then
      match Value.ofJsonLenient resource.schema.valueType json with
      | .ok value => pure (some value, [])
      | .error error =>
        pure (none, [.error storedStateSummary
          ("The saved state does not match the current schema.\n\n" ++ error.message)])
    else do
      let response ←
        resource.upgradeState ⟨version.toUInt64, json⟩ ⟨.null resource.schema, []⟩
      if response.diagnostics.hasError then pure (none, response.diagnostics)
      else if response.state.isNull then
        pure (none, response.diagnostics ++ [.error "Missing Upgraded Resource State"
          ("The resource's upgrade callback returned no state for version " ++
            decimalText version.toInt ++ ". This is always a bug in the provider.")])
      else pure (some response.state.raw, response.diagnostics)

/-- Bring stored state to the current schema.  Without stored state there is nothing to
do. -/
def upgradeResourceState (server : Server m δ) :
    Option Protocol.UpgradeStateRequest → m Protocol.NewStateResponse
  | none => pure {}
  | some request =>
    let stored := request.rawState.getD ByteArray.empty
    if stored.isEmpty then pure {}
    else do
      let (found, lookup) ← server.resource request.typeName
      match found with
      | none => pure { diagnostics := lookup.toWire }
      | some resource =>
        let (upgraded, problems) ← upgradeStored resource request.version stored
        pure {
          state := upgraded.map DynamicValue.encode
          diagnostics := (lookup ++ problems).toWire }

/-- Refresh the state of a resource.  A state that is null or cannot be decoded is
returned as it came. -/
def readResource (server : Server m δ) :
    Option Protocol.ReadResourceRequest → m Protocol.NewStateResponse
  | none => pure {}
  | some request => do
    let (found, lookup) ← server.resource request.typeName
    match found with
    | none => pure { state := request.currentState, diagnostics := lookup.toWire }
    | some resource =>
      let schema := resource.schema
      let (current, problems) := decodePayload schema "current state" request.currentState
      let (providerMeta, metaProblems) := server.decodeMeta request.providerMeta
      let before := lookup ++ problems ++ metaProblems
      if before.hasError || current.isNull then
        pure { state := request.currentState, diagnostics := before.toWire }
      else
        let response ←
          resource.read ⟨⟨schema, current⟩, providerMeta⟩ ⟨⟨schema, current⟩, []⟩
        pure {
          state := some (.encode response.state.raw)
          diagnostics := (before ++ response.diagnostics).toWire }

/-- A plan before the resource has modified it: the proposed state with defaults, and
when that differs from the prior state, with unknown values for what the provider has
yet to compute. -/
def plannedChange (schema : Schema) (prior config proposed : Value) :
    Completion (Value × Paths) :=
  if proposed.isNull then .unchanged (proposed, .empty)
  else
    let withDefaults := schema.complete .defaults config proposed
    if withDefaults.result == prior then
      ⟨(withDefaults.result, .empty), withDefaults.diagnostics⟩
    else
      let completed := schema.complete .unknowns config withDefaults.result
      let requiresReplace :=
        if prior.isNull then .empty else schema.replacements prior completed.result
      ⟨(completed.result, requiresReplace), withDefaults.diagnostics ++ completed.diagnostics⟩

/-- Plan a change of a resource.  The resource modifies the plan last, also when it is
to be destroyed, unless a default was invalid. -/
def planResourceChange (server : Server m δ) :
    Option Protocol.PlanChangeRequest → m Protocol.PlanChangeResponse
  | none => pure {}
  | some request => do
    let (found, lookup) ← server.resource request.typeName
    match found with
    | none => pure { diagnostics := lookup.toWire }
    | some resource =>
      let schema := resource.schema
      let (prior, priorProblems) := decodePayload schema "prior state" request.priorState
      let (proposed, proposedProblems) :=
        decodePayload schema "proposed new state" request.proposedNewState
      let (config, configProblems) := decodePayload schema "configuration" request.config
      let (providerMeta, metaProblems) := server.decodeMeta request.providerMeta
      let before := lookup ++ priorProblems ++ proposedProblems ++ configProblems ++ metaProblems
      if before.hasError then pure { diagnostics := before.toWire }
      else
        let change := plannedChange schema prior config proposed
        let (planned, requiresReplace) := change.result
        let before := before ++ change.diagnostics
        let start : ModifyPlanResponse := ⟨⟨schema, planned⟩, requiresReplace, []⟩
        let response ←
          if before.hasError then pure start
          else
            resource.modifyPlan
              ⟨⟨schema, config⟩, ⟨schema, prior⟩, ⟨schema, planned⟩, providerMeta⟩ start
        pure {
          plannedState := some (.encode response.plan.raw)
          requiresReplace := response.requiresReplace.toList.map Path.toWire
          diagnostics := (before ++ response.diagnostics).toWire }

/-- The problem of a callback that returned neither a state nor an error. -/
def missingState (operation callback : String) : Diagnostic :=
  .error ("Missing Resource State After " ++ operation)
    ("The resource's " ++ callback ++ " callback returned no state and no error. " ++
      "This is always a bug in the provider.")

/-- The new state of a creation or an update.  No state is a problem unless there is an
error already. -/
def producedState (operation callback : String) (before : Diagnostics)
    (response : StateResponse) : Value × Diagnostics :=
  let diagnostics := before ++ response.diagnostics
  (response.state.raw,
    if response.state.isNull then andThen diagnostics [missingState operation callback]
    else diagnostics)

/-- Create, update or delete a resource.  The new state of a deletion is null, or what
the callback left when it reported an error. -/
def applyChange (resource : Resource m) (before : Diagnostics) (prior planned config : Value)
    (providerMeta : Config) : m (Value × Diagnostics) :=
  let schema := resource.schema
  if planned.isNull then
    if prior.isNull then pure (.null, before)
    else do
      let response ← resource.delete ⟨⟨schema, prior⟩, providerMeta⟩ ⟨⟨schema, prior⟩, []⟩
      pure (if response.diagnostics.hasError then response.state.raw else .null,
        before ++ response.diagnostics)
  else if prior.isNull then do
    let response ←
      resource.create ⟨⟨schema, config⟩, ⟨schema, planned⟩, providerMeta⟩ ⟨⟨schema, planned⟩, []⟩
    pure (producedState "Create" "create" before response)
  else do
    let response ←
      resource.update ⟨⟨schema, config⟩, ⟨schema, planned⟩, ⟨schema, prior⟩, providerMeta⟩
        ⟨⟨schema, planned⟩, []⟩
    pure (producedState "Update" "update" before response)

/-- Apply a planned change of a resource.  Nothing may be unknown afterwards. -/
def applyResourceChange (server : Server m δ) :
    Option Protocol.ApplyChangeRequest → m Protocol.NewStateResponse
  | none => pure {}
  | some request => do
    let (found, lookup) ← server.resource request.typeName
    match found with
    | none => pure { diagnostics := lookup.toWire }
    | some resource =>
      let schema := resource.schema
      let (prior, priorProblems) := decodePayload schema "prior state" request.priorState
      let (planned, plannedProblems) := decodePayload schema "planned state" request.plannedState
      let (config, configProblems) := decodePayload schema "configuration" request.config
      let (providerMeta, metaProblems) := server.decodeMeta request.providerMeta
      let before := lookup ++ priorProblems ++ plannedProblems ++ configProblems ++ metaProblems
      if before.hasError then pure { diagnostics := before.toWire }
      else
        let (newState, problems) ← applyChange resource before prior planned config providerMeta
        pure {
          state := some (.encode newState)
          diagnostics := (andThen problems (unknownAfter "apply" newState)).toWire }

/-- The problem of an import that gave neither a state nor an error. -/
def missingImport : Diagnostic :=
  .error "Missing Resource Import State"
    ("The resource's import callback returned no state and no error. " ++
      "This is always a bug in the provider.")

/-- Import an existing object as a resource. -/
def importResourceState (server : Server m δ) :
    Option Protocol.ImportStateRequest → m Protocol.ImportStateResponse
  | none => pure {}
  | some request => do
    let (found, lookup) ← server.resource request.typeName
    match found with
    | none => pure { diagnostics := lookup.toWire }
    | some resource =>
      let response ← resource.importState request.id ⟨.null resource.schema, []⟩
      let diagnostics := lookup ++ response.diagnostics
      if diagnostics.hasError then pure { diagnostics := diagnostics.toWire }
      else if response.state.isNull then
        pure { diagnostics := (diagnostics ++ [missingImport]).toWire }
      else
        pure {
          imported := [⟨request.typeName, some (.encode response.state.raw)⟩]
          diagnostics := diagnostics.toWire }

end Server
end ProviderKit
