import ProviderKit.Json.Basic

/-!
# Attribute types

The type of an attribute drives how its values are decoded.  The host knows one
type of numbers only; that an attribute holds whole numbers is enforced here and
not told to it, so `typeConstraint` identifies types that differ in nothing else.
-/

namespace ProviderKit

/-- The type of a value.  An object type lists its attributes in name order. -/
inductive AttributeType where
  /-- Text. -/
  | string
  /-- Whole numbers of 64 bits with sign. -/
  | int64
  /-- Any number. -/
  | float64
  /-- Truth values. -/
  | bool
  /-- Ordered elements. -/
  | list (element : AttributeType)
  /-- Unordered elements without duplicates. -/
  | set (element : AttributeType)
  /-- Elements under arbitrary keys. -/
  | map (element : AttributeType)
  /-- Named attributes, each with its own type. -/
  | object (attributes : List (String × AttributeType))
  /-- Whatever the host sends. -/
  | dynamic

namespace AttributeType

instance : Inhabited AttributeType := ⟨dynamic⟩

/-- The name of a type in diagnostics. -/
def name : AttributeType → String
  | string => "string"
  | int64 => "int64"
  | float64 => "float64"
  | bool => "bool"
  | list _ => "list"
  | set _ => "set"
  | map _ => "map"
  | object _ => "object"
  | dynamic => "dynamic"

mutual

/-- The type as the host is told: a word, or an array of a word and its parameter. -/
def typeConstraint : AttributeType → Json
  | string => .string "string"
  | int64 => .string "number"
  | float64 => .string "number"
  | bool => .string "bool"
  | list element => .array [.string "list", element.typeConstraint]
  | set element => .array [.string "set", element.typeConstraint]
  | map element => .array [.string "map", element.typeConstraint]
  | object attributes => .array [.string "object", .object (typeConstraints attributes)]
  | dynamic => .string "dynamic"

def typeConstraints : List (String × AttributeType) → List (String × Json)
  | [] => []
  | (name, type) :: rest => (name, type.typeConstraint) :: typeConstraints rest

end

end AttributeType
end ProviderKit
