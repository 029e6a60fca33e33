import ProviderKit.Diagnostic
import ProviderKit.Schema.Wire
import ProviderKit.Value.Wire

/-!
# Protocol messages

The requests a host sends and the responses it gets.  A payload that is absent is
`none`, which is not the same as a payload without bytes.
-/

namespace ProviderKit
namespace Protocol

/-- Validate or read by a configuration of a type. -/
structure ConfigRequest where
  typeName : String := ""
  config : Option DynamicValue := none

structure ValidateProviderRequest where
  config : Option DynamicValue := none

structure ConfigureProviderRequest where
  hostVersion : String := ""
  config : Option DynamicValue := none

/-- Bring stored state to the current schema. -/
structure UpgradeStateRequest where
  typeName : String := ""
  version : Int64 := 0
  rawState : Option ByteArray := none

structure ReadResourceRequest where
  typeName : String := ""
  currentState : Option DynamicValue := none
  providerMeta : Option DynamicValue := none

structure PlanChangeRequest where
  typeName : String := ""
  priorState : Option DynamicValue := none
  proposedNewState : Option DynamicValue := none
  config : Option DynamicValue := none
  providerMeta : Option DynamicValue := none

structure ApplyChangeRequest where
  typeName : String := ""
  priorState : Option DynamicValue := none
  plannedState : Option DynamicValue := none
  config : Option DynamicValue := none
  providerMeta : Option DynamicValue := none

/-- Import an existing object as a resource. -/
structure ImportStateRequest where
  typeName : String := ""
  id : String := ""

structure ReadDataSourceRequest where
  typeName : String := ""
  config : Option DynamicValue := none
  providerMeta : Option DynamicValue := none

/-- The schemas of a provider and of everything it serves. -/
structure SchemaResponse where
  provider : WireSchema
  providerMeta : Option WireSchema
  resourceSchemas : List (String × WireSchema)
  dataSourceSchemas : List (String × WireSchema)
  planDestroy : Bool
  diagnostics : List WireDiagnostic

/-- The problems found by a validation or a configuration. -/
structure DiagnosticsResponse where
  diagnostics : List WireDiagnostic := []

/-- A state that was upgraded, refreshed, applied or read. -/
structure NewStateResponse where
  state : Option DynamicValue := none
  diagnostics : List WireDiagnostic := []

/-- A planned state, and what makes it a replacement. -/
structure PlanChangeResponse where
  plannedState : Option DynamicValue := none
  requiresReplace : List WirePath := []
  diagnostics : List WireDiagnostic := []

/-- An imported state and the type it belongs to. -/
structure ImportedResource where
  typeName : String
  state : Option DynamicValue

/-- What was imported. -/
structure ImportStateResponse where
  imported : List ImportedResource := []
  diagnostics : List WireDiagnostic := []

/-- Why the provider did not stop; empty when it did. -/
structure StopResponse where
  error : String := ""

/-- A call of the host.  The request of a call may be missing. -/
inductive Request where
  | getProviderSchema
  | validateProviderConfig (request : Option ValidateProviderRequest)
  | configureProvider (request : Option ConfigureProviderRequest)
  | validateResourceConfig (request : Option ConfigRequest)
  | validateDataSourceConfig (request : Option ConfigRequest)
  | upgradeResourceState (request : Option UpgradeStateRequest)
  | readResource (request : Option ReadResourceRequest)
  | planResourceChange (request : Option PlanChangeRequest)
  | applyResourceChange (request : Option ApplyChangeRequest)
  | importResourceState (request : Option ImportStateRequest)
  | readDataSource (request : Option ReadDataSourceRequest)
  | stopProvider

/-- The answer to a call. -/
inductive Response where
  | schema (response : SchemaResponse)
  | diagnostics (response : DiagnosticsResponse)
  | upgradedState (response : NewStateResponse)
  | newState (response : NewStateResponse)
  | plannedChange (response : PlanChangeResponse)
  | importedState (response : ImportStateResponse)
  | dataSourceState (response : NewStateResponse)
  | stopped (response : StopResponse)

/-- The call with an empty request in place of a missing one. -/
def Request.present : Request → Request
  | getProviderSchema => getProviderSchema
  | validateProviderConfig request => validateProviderConfig (some (request.getD {}))
  | configureProvider request => configureProvider (some (request.getD {}))
  | validateResourceConfig request => validateResourceConfig (some (request.getD {}))
  | validateDataSourceConfig request => validateDataSourceConfig (some (request.getD {}))
  | upgradeResourceState request => upgradeResourceState (some (request.getD {}))
  | readResource request => readResource (some (request.getD {}))
  | planResourceChange request => planResourceChange (some (request.getD {}))
  | applyResourceChange request => applyResourceChange (some (request.getD {}))
  | importResourceState request => importResourceState (some (request.getD {}))
  | readDataSource request => readDataSource (some (request.getD {}))
  | stopProvider => stopProvider

end Protocol
end ProviderKit
