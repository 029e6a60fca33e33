import ProviderKit.Json.Basic

/-!
# Values

A value is what a document means once a type has been applied to it.  Besides
ordinary data it may be null, or unknown: during planning a configuration may
refer to something that is only known after apply.  On the wire an unknown value
is a string that no ordinary value uses.

Lists and sets, and maps and objects, are different values although their
documents look the same.
-/

namespace ProviderKit

/-- A value that has been decoded against a type. -/
inductive Value where
  | null
  /-- Known only after apply. -/
  | unknown
  | bool (value : Bool)
  | number (value : Json.Number)
  | string (value : String)
  /-- Ordered elements. -/
  | list (elements : List Value)
  /-- Elements whose order carries no meaning. -/
  | set (elements : List Value)
  /-- Entries under arbitrary keys, in key order. -/
  | map (entries : List (String × Value))
  /-- Attributes fixed by a type, in name order. -/
  | object (attributes : List (String × Value))

namespace Value

instance : Inhabited Value := ⟨null⟩

/-- The string that stands for an unknown value on the wire. -/
def unknownMarker : String :=
  "74D93920-ED26-11E3-AC10-0800200C9A66"

def int (n : Int) : Value :=
  number (.int n)

/-- The value of a double.  A double that is not finite has no number and gives
null. -/
def ofDouble : Option Binary64 → Value
  | some x => number (.float x)
  | none => null

/-- What kind of value this is, in the words of diagnostics. -/
def typeName : Value → String
  | null => "null"
  | unknown => "unknown"
  | bool _ => "bool"
  | number _ => "number"
  | string _ => "string"
  | list _ => "list"
  | set _ => "set"
  | map _ => "map"
  | object _ => "object"

def isNull : Value → Bool
  | null => true
  | _ => false

theorem isNull_iff {value : Value} : value.isNull = true ↔ value = null := by
  cases value <;> simp [isNull]

def isUnknown : Value → Bool
  | unknown => true
  | _ => false

/-- An attribute of an object; null when it is missing and for anything else. -/
def attributeNamed (name : String) : Value → Value
  | object attributes => (Entries.find? name attributes).getD null
  | _ => null

mutual

def toJson : Value → Json
  | null => .null
  | unknown => .string unknownMarker
  | bool b => .bool b
  | number n => .number n
  | string s => .string s
  | list elements => .array (toJsonItems elements)
  | set elements => .array (toJsonItems elements)
  | map entries => .object (toJsonMembers entries)
  | object attributes => .object (toJsonMembers attributes)

def toJsonItems : List Value → List Json
  | [] => []
  | element :: rest => element.toJson :: toJsonItems rest

def toJsonMembers : List (String × Value) → List (String × Json)
  | [] => []
  | (key, value) :: rest => (key, value.toJson) :: toJsonMembers rest

end

mutual

/-- Whether nothing in the value is unknown. -/
def isFullyKnown : Value → Bool
  | unknown => false
  | list elements => allFullyKnown elements
  | set elements => allFullyKnown elements
  | map entries => entriesFullyKnown entries
  | object attributes => entriesFullyKnown attributes
  | _ => true

/-- Whether nothing in the elements is unknown. -/
def allFullyKnown : List Value → Bool
  | [] => true
  | element :: rest => element.isFullyKnown && allFullyKnown rest

/-- Whether nothing in the entries is unknown. -/
def entriesFullyKnown : List (String × Value) → Bool
  | [] => true
  | (_, value) :: rest => value.isFullyKnown && entriesFullyKnown rest

end

theorem toJsonItems_eq_map (elements : List Value) :
    toJsonItems elements = elements.map toJson := by
  induction elements with
  | nil => rfl
  | cons element rest ih => simp [toJsonItems, ih]

theorem toJsonMembers_eq_map (entries : List (String × Value)) :
    toJsonMembers entries = Entries.mapValues toJson entries := by
  induction entries with
  | nil => rfl
  | cons entry rest ih => simp [toJsonMembers, Entries.mapValues] at ih ⊢; exact ih

theorem allFullyKnown_eq_all (elements : List Value) :
    allFullyKnown elements = elements.all isFullyKnown := by
  induction elements with
  | nil => rfl
  | cons element rest ih => simp [allFullyKnown, ih]

theorem entriesFullyKnown_eq_all (entries : List (String × Value)) :
    entriesFullyKnown entries = entries.all fun entry => entry.2.isFullyKnown := by
  induction entries with
  | nil => rfl
  | cons entry rest ih => simp [entriesFullyKnown, ih]

end Value
end ProviderKit
