import ProviderKit.Json.Parser
import ProviderKit.Path

/-!
# What can be wrong with a value

Each cause names the place it concerns, except for the two that concern a whole
payload.  The wording of all causes is in `message`.
-/

namespace ProviderKit

/-- Why a value could not be decoded, read or written. -/
inductive ValueError where
  /-- The document is of another kind than its type asks for. -/
  | typeMismatch (path : Path) (expected got : String)
  /-- An object has an attribute that its type does not declare. -/
  | unsupportedAttribute (path : Path) (name : String)
  /-- An element of a set equals an earlier one. -/
  | duplicateSetElement (path : Path)
  /-- A null value was read where a value is required. -/
  | null (path : Path)
  /-- An unknown value was read where a known one is required. -/
  | unknown (path : Path)
  /-- A path does not follow the shape of the value. -/
  | invalidPath (path : Path)
  /-- The payload is in an encoding that is not read. -/
  | unsupportedEncoding
  /-- The payload is not a document. -/
  | malformed (cause : Json.ParseError)
deriving DecidableEq

namespace ValueError

/-- The place an error concerns. -/
def path? : ValueError → Option Path
  | typeMismatch path _ _ => some path
  | unsupportedAttribute path _ => some path
  | duplicateSetElement path => some path
  | null path => some path
  | unknown path => some path
  | invalidPath path => some path
  | unsupportedEncoding => none
  | malformed _ => none

/-- How a message begins: with the attribute, or with the value as a whole. -/
def subject (path : Path) : String :=
  if path.isEmpty then "value" else "attribute \"" ++ path.display ++ "\""

def message : ValueError → String
  | typeMismatch path expected got =>
    subject path ++ ": expected " ++ expected ++ ", got " ++ got
  | unsupportedAttribute path name =>
    subject path ++ ": unsupported attribute \"" ++ name ++ "\""
  | duplicateSetElement path => subject path ++ ": duplicate set element"
  | null path => subject path ++ ": value is null"
  | unknown path => subject path ++ ": value is unknown"
  | invalidPath path => subject path ++ ": no such attribute or element"
  | unsupportedEncoding =>
    "msgpack-encoded values are not supported, the host must send JSON"
  | malformed cause => "invalid JSON: " ++ cause.message

end ValueError
end ProviderKit
