import ProviderKit.Json.Reader

/-!
# A model of a resource

The record as which a program may hold a resource: a name, and a size that may be
missing.  It is read from an object, where other members are passed over, or from an
array of its parts.
-/

namespace ProviderKit
namespace Script

/-- A name with an optional size. -/
structure Model where
  name : String
  size : Option Int
deriving DecidableEq

namespace Model

def reader : Json.Reader Model
  | .object members => do
    let some name := Entries.find? "name" members | .error "missing field name"
    let size := (Entries.find? "size" members).getD .null
    .ok ⟨← Json.Reader.text name, ← Json.Reader.optional Json.Reader.int64 size⟩
  | .array [name, size] => do
    .ok ⟨← Json.Reader.text name, ← Json.Reader.optional Json.Reader.int64 size⟩
  | other => .error (Json.Reader.mismatch other "a model")

end Model
end Script
end ProviderKit
