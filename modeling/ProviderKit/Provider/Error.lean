import ProviderKit.Diagnostic

/-!
# Errors around callbacks

Callbacks report problems as diagnostics.  The errors here arise around them: a type
that the provider does not define, two definitions of one type, a provider that does
not stop, a program that was not started by its host.
-/

namespace ProviderKit

/-- A failure outside the callbacks of a provider. -/
inductive ProviderError where
  | unknownResource (typeName : String)
  | unknownDataSource (typeName : String)
  | duplicateResource (typeName : String)
  | duplicateDataSource (typeName : String)
  /-- Reported by the provider itself. -/
  | reported (message : String)
  /-- A document could not be written or read. -/
  | serialization (reason : String)
  /-- The surroundings failed while the server was set up. -/
  | io (reason : String)
  /-- The program was started outside of a host. -/
  | notPlugin
deriving DecidableEq

namespace ProviderError

def message : ProviderError → String
  | unknownResource typeName => "Unknown resource type: " ++ typeName
  | unknownDataSource typeName => "Unknown data source type: " ++ typeName
  | duplicateResource typeName => "Duplicate resource type: " ++ typeName
  | duplicateDataSource typeName => "Duplicate data source type: " ++ typeName
  | reported message => "SDK error: " ++ message
  | serialization reason => "Serialization error: " ++ reason
  | io reason => "I/O error: " ++ reason
  | notPlugin =>
    "This binary is a plugin and is not meant to be executed directly. " ++
    "Run it through the host that loads it."

/-- The kind of error, as the summary of its diagnostic. -/
def summary : ProviderError → String
  | unknownResource _ => "Resource Type Not Found"
  | unknownDataSource _ => "Data Source Type Not Found"
  | duplicateResource _ => "Duplicate Resource Type Defined"
  | duplicateDataSource _ => "Duplicate Data Source Type Defined"
  | reported _ => "Provider Error"
  | serialization _ => "Serialization Error"
  | io _ => "I/O Error"
  | notPlugin => "Not Running As Plugin"

def toDiagnostic (error : ProviderError) : Diagnostic :=
  .error error.summary error.message

end ProviderError
end ProviderKit
