import ProviderKit.Json.Basic

/-!
# Reading records from documents

Readers for the parts of a program's own records: texts, integers, optional parts, and
entries.  A reader gives its result or says what it expected.
-/

namespace ProviderKit
namespace Json

/-- What a reader of documents gives. -/
abbrev Reader (α : Type) := Json → Except String α

namespace Reader

variable {α : Type}

/-- What to say about a document of the wrong kind. -/
def mismatch (found : Json) (expected : String) : String :=
  "invalid type: " ++ found.typeName ++ ", expected " ++ expected

def any : Reader Json :=
  .ok

def text : Reader String
  | .string s => .ok s
  | other => .error (mismatch other "a string")

def int64 : Reader Int
  | .number n =>
    match n.asInt64? with
    | some i => .ok i
    | none => .error (mismatch (.number n) "a 64-bit integer")
  | other => .error (mismatch other "a 64-bit integer")

/-- A part that may be null. -/
def optional (reader : Reader α) : Reader (Option α)
  | .null => .ok none
  | other => (reader other).map some

/-- Entries that are all read alike. -/
def entries (reader : Reader α) : Reader (List (String × α))
  | .object members => members.mapM fun (key, item) => do
    let value ← reader item
    .ok (key, value)
  | other => .error (mismatch other "a map")

end Reader
end Json
end ProviderKit
