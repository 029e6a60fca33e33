import ProviderKit.Schema.Validation
import ProviderKit.Server.Basic

/-!
# Schemas and configurations

The host asks for all schemas once.  Of several types with one name the first is
reported and served, and each of the others is an error.

A configuration is validated by the schema and then by the provider, the resource or
the data source.  Configuring the provider runs in a fixed order: its schema, whose
errors end the call; the configuration, which is not decoded at all when the schema is
empty and ends the call when it cannot be; and then the callback.  The data it leaves
takes effect unless it reported an error.
-/

namespace ProviderKit
namespace Server

variable {m : Type → Type} [Monad m] {δ : Type}

/-- Schemas by type name, the first of each name, and an error for each repetition. -/
def reportSchemas {ι : Type} (providerName : String) (duplicate : String → ProviderError)
    (types : List (ServedType m δ ι)) : List (String × WireSchema) × Diagnostics :=
  types.foldl (fun (schemas, diagnostics) served =>
    let name := served.typeName providerName
    if Entries.contains name schemas then
      (schemas, diagnostics ++ [(duplicate name).toDiagnostic])
    else (Entries.insert name served.schema.toWire schemas, diagnostics)) ([], [])

/-- Describe the provider and all it serves. -/
def getProviderSchema (server : Server m δ) : m Protocol.SchemaResponse := do
  let provider := server.provider
  let described ← provider.schema
  let (resources, resourceProblems) :=
    reportSchemas provider.typeName .duplicateResource provider.resources
  let (dataSources, dataSourceProblems) :=
    reportSchemas provider.typeName .duplicateDataSource provider.dataSources
  pure {
    provider := described.schema.toWire
    providerMeta := provider.metaSchema.map Schema.toWire
    resourceSchemas := resources
    dataSourceSchemas := dataSources
    planDestroy := true
    diagnostics :=
      (described.diagnostics ++ resourceProblems ++ dataSourceProblems).toWire }

/-- Validate a configuration payload by a schema and then by a callback, which runs
unless the payload could not be decoded. -/
def validatePayload (schema : Schema) (payload : Option DynamicValue)
    (callback : Config → m Diagnostics) : m Diagnostics := do
  let (raw, problems) := decodePayload schema "configuration" payload
  if problems.hasError then pure problems
  else
    let further ← callback ⟨schema, raw⟩
    pure (problems ++ schema.validate raw ++ further)

def validateProviderConfig (server : Server m δ) :
    Option Protocol.ValidateProviderRequest → m Protocol.DiagnosticsResponse
  | none => pure {}
  | some request => do
    let described ← server.provider.schema
    if described.diagnostics.hasError then pure ⟨described.diagnostics.toWire⟩
    else
      let found ←
        validatePayload described.schema request.config server.provider.validateConfig
      pure ⟨(described.diagnostics ++ found).toWire⟩

def validateResourceConfig (server : Server m δ) :
    Option Protocol.ConfigRequest → m Protocol.DiagnosticsResponse
  | none => pure {}
  | some request => do
    let (found, lookup) ← server.resource request.typeName
    match found with
    | none => pure ⟨lookup.toWire⟩
    | some resource =>
      let problems ← validatePayload resource.schema request.config resource.validateConfig
      pure ⟨(lookup ++ problems).toWire⟩

def validateDataSourceConfig (server : Server m δ) :
    Option Protocol.ConfigRequest → m Protocol.DiagnosticsResponse
  | none => pure {}
  | some request => do
    let (found, lookup) ← server.dataSource request.typeName
    match found with
    | none => pure ⟨lookup.toWire⟩
    | some source =>
      let problems ← validatePayload source.schema request.config source.validateConfig
      pure ⟨(lookup ++ problems).toWire⟩

/-- The configuration in a payload for a schema.  An empty schema has nothing to
configure, so its payload is passed over. -/
def providerConfig (schema : Schema) (payload : Option DynamicValue) : Config × Diagnostics :=
  if schema.isEmpty then (.null schema, [])
  else
    let (raw, problems) := decodePayload schema "configuration" payload
    (⟨schema, raw⟩, problems)

/-- Configure the provider.  The result is the response and the server afterwards. -/
def configureProvider (server : Server m δ) :
    Option Protocol.ConfigureProviderRequest → m (Protocol.DiagnosticsResponse × Server m δ)
  | none => pure ({}, server)
  | some request => do
    let described ← server.provider.schema
    if described.diagnostics.hasError then pure (⟨described.diagnostics.toWire⟩, server)
    else
      let (config, problems) := providerConfig described.schema request.config
      let before := described.diagnostics ++ problems
      if before.hasError then pure (⟨before.toWire⟩, server)
      else
        let response ← server.provider.configure ⟨request.hostVersion, config⟩
        let after :=
          if response.diagnostics.hasError then server
          else { server with providerData := response.providerData }
        pure (⟨(before ++ response.diagnostics).toWire⟩, after)

end Server
end ProviderKit
