import ProviderKit.Protocol
import ProviderKit.Provider.Basic

/-!
# Servers

A server answers the calls of a host by calling the provider.  The only thing it
remembers between calls is the data that the provider made of its configuration.
Whatever goes wrong is reported as diagnostics of the response.

Here are the steps that calls share: decoding payloads, finding the instance that
answers a call, and the check that nothing is left unknown.
-/

namespace ProviderKit

/-- A provider, and the data of its last successful configuration. -/
structure Server (m : Type → Type) (δ : Type) where
  provider : Provider m δ
  providerData : Option δ := none

namespace Server

variable {m : Type → Type} [Monad m] {δ : Type}

/-- The diagnostic for a payload that could not be decoded. -/
def payloadError (what : String) (error : ValueError) : Diagnostic :=
  .error ("Unable to Convert " ++ what)
    ("An unexpected error was encountered when converting the " ++ what ++
      " from the protocol type. This is always an issue in the provider or the host " ++
      "and should be reported.\n\n" ++ error.message)

/-- Decode a payload against the type of a schema.  An absent payload is null, and so
is one that could not be decoded, which is reported. -/
def decodePayload (schema : Schema) (what : String) (payload : Option DynamicValue) :
    Value × Diagnostics :=
  match payload with
  | none => (.null, [])
  | some payload =>
    match payload.decode schema.valueType with
    | .ok value => (value, [])
    | .error error => (.null, [payloadError what error])

/-- The metadata of the calling module.  Without a schema for it there is none. -/
def decodeMeta (server : Server m δ) (payload : Option DynamicValue) : Config × Diagnostics :=
  match server.provider.metaSchema with
  | none => (default, [])
  | some schema =>
    let (raw, diagnostics) := decodePayload schema "provider_meta" payload
    (⟨schema, raw⟩, diagnostics)

/-- Configure an instance of a served type.  There is none when the type is unknown or
the configuration failed. -/
def instantiate {ι : Type} (server : Server m δ) (found : Option (ServedType m δ ι))
    (unknown : ProviderError) : m (Option ι × Diagnostics) :=
  match found with
  | none => pure (none, [unknown.toDiagnostic])
  | some served => do
    let (inst, diagnostics) ← served.configure server.providerData
    pure (if diagnostics.hasError then none else some inst, diagnostics)

/-- The resource that answers a call for a type. -/
def resource (server : Server m δ) (typeName : String) :
    m (Option (Resource m) × Diagnostics) :=
  server.instantiate (server.provider.findResource? typeName) (.unknownResource typeName)

/-- The data source that answers a call for a type. -/
def dataSource (server : Server m δ) (typeName : String) :
    m (Option (DataSource m) × Diagnostics) :=
  server.instantiate (server.provider.findDataSource? typeName) (.unknownDataSource typeName)

/-- A problem for each value that is still unknown after an operation. -/
def unknownAfter (operation : String) (value : Value) : Diagnostics :=
  value.unknownPaths.map fun path =>
    .attributeError path ("Provider Returned Invalid Result Object After " ++ operation)
      ("After the " ++ operation ++
        " operation, the provider still indicated an unknown value for " ++ path.display ++
        ". All values must be known after " ++ operation ++
        ", so this is always a bug in the provider.")

/-- Further checks, made only while there is no error. -/
def andThen (diagnostics further : Diagnostics) : Diagnostics :=
  if diagnostics.hasError then diagnostics else diagnostics ++ further

end Server
end ProviderKit
