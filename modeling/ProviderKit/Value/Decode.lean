import ProviderKit.AttributeType
import ProviderKit.Value.Equality
import ProviderKit.Value.Error

/-!
# Decoding

A document is decoded against a type.  Null and the unknown marker fit every
type.  An object type yields an object with exactly its attributes: missing
members become null, and members it does not declare are an error, or are dropped
when decoding leniently, as stored state may still hold attributes that a schema
has lost.  An element of a set that is fully known must differ from every
earlier one.  Without a type, arrays are lists and objects are objects.

The first error in the order of the traversal is reported: undeclared members
before the attributes, attributes in name order, entries in key order, elements
in their order, and duplicates after all elements.
-/

namespace ProviderKit
namespace Value

/-- Whether undeclared attributes of an object are rejected or dropped. -/
inductive Strictness where
  | strict
  | lenient
deriving DecidableEq

/-- Whether a document is the marker of an unknown value. -/
def isMarker : Json → Bool
  | .string s => s == unknownMarker
  | _ => false

mutual

/-- Decode a document without a type. -/
def ofUntyped : Json → Value
  | .null => null
  | .bool b => bool b
  | .number n => number n
  | .string s => if s = unknownMarker then unknown else string s
  | .array items => list (ofUntypedItems items)
  | .object members => object (ofUntypedMembers members)

def ofUntypedItems : List Json → List Value
  | [] => []
  | item :: rest => ofUntyped item :: ofUntypedItems rest

def ofUntypedMembers : List (String × Json) → List (String × Value)
  | [] => []
  | (name, item) :: rest => (name, ofUntyped item) :: ofUntypedMembers rest

end

/-- Decode the items of an array with one decoder, each at its index. -/
def decodeElements (decode : Path → Json → Except ValueError Value) (path : Path)
    (items : List Json) : Except ValueError (List Value) :=
  items.zipIdx.mapM fun (item, index) => decode (path.atIndex index) item

/-- Decode the members of an object with one decoder, each at its key. -/
def decodeEntries (decode : Path → Json → Except ValueError Value) (path : Path)
    (members : List (String × Json)) : Except ValueError (List (String × Value)) :=
  members.mapM fun (key, item) => do
    let value ← decode (path.atKey key) item
    .ok (key, value)

/-- The index of the first element that is fully known and equals an earlier one.
The elements before the list are given, with the index of its head. -/
def firstDuplicate? (earlier : List Value) (index : Nat) : List Value → Option Nat
  | [] => none
  | element :: rest =>
    if element.isFullyKnown && earlier.any (· == element) then some index
    else firstDuplicate? (earlier ++ [element]) (index + 1) rest

/-- The name of the first member that a type does not declare. -/
def firstUndeclared? (attributes : List (String × AttributeType))
    (members : List (String × Json)) : Option String :=
  (Entries.keys members).find? fun name => !Entries.contains name attributes

mutual

/-- Decode a document that stands at a path. -/
def decodeAt (strictness : Strictness) :
    AttributeType → Path → Json → Except ValueError Value
  | type, path, json =>
    if isMarker json then .ok unknown
    else if json.isNull then .ok null
    else
      match type, json with
      | .string, .string s => .ok (string s)
      | .int64, .number n =>
        match n.toInt64? with
        | some i => .ok (int i)
        | none => .error (.typeMismatch path "int64" "number")
      | .float64, .number n => .ok (number n)
      | .bool, .bool b => .ok (bool b)
      | .list element, .array items => do
        let elements ← decodeElements (decodeAt strictness element) path items
        .ok (list elements)
      | .set element, .array items => do
        let elements ← decodeElements (decodeAt strictness element) path items
        match firstDuplicate? [] 0 elements with
        | some index => .error (.duplicateSetElement (path.atIndex index))
        | none => .ok (set elements)
      | .map element, .object members => do
        let entries ← decodeEntries (decodeAt strictness element) path members
        .ok (map entries)
      | .object attributes, .object members =>
        match strictness, firstUndeclared? attributes members with
        | .strict, some name => .error (.unsupportedAttribute path name)
        | _, _ => do
          let decoded ← decodeAttributes strictness attributes path members
          .ok (object decoded)
      | .dynamic, json => .ok (ofUntyped json)
      | type, json => .error (.typeMismatch path type.name json.typeName)

/-- Decode the attributes that an object type declares. -/
def decodeAttributes (strictness : Strictness) :
    List (String × AttributeType) → Path → List (String × Json) →
      Except ValueError (List (String × Value))
  | [], _, _ => .ok []
  | (name, type) :: rest, path, members => do
    let item := (Entries.find? name members).getD .null
    let value ← decodeAt strictness type (path.atName name) item
    let values ← decodeAttributes strictness rest path members
    .ok ((name, value) :: values)

end

theorem decodeAt_marker (strictness : Strictness) (type : AttributeType) (path : Path)
    {json : Json} (marker : isMarker json = true) :
    decodeAt strictness type path json = .ok unknown := by
  unfold decodeAt
  rw [if_pos marker]

theorem decodeAt_null (strictness : Strictness) (type : AttributeType) (path : Path) :
    decodeAt strictness type path .null = .ok null := by
  unfold decodeAt
  rfl

/-- Without a type null and the marker need no treatment of their own. -/
theorem decodeAt_dynamic (strictness : Strictness) (path : Path) (json : Json) :
    decodeAt strictness .dynamic path json = .ok (ofUntyped json) := by
  unfold decodeAt
  split
  · next marker =>
    cases json with
    | string s => simp [ofUntyped, beq_iff_eq.mp marker]
    | _ => cases marker
  · split
    · next absent =>
      cases json with
      | null => rfl
      | _ => cases absent
    · rfl

def ofJson (type : AttributeType) (json : Json) : Except ValueError Value :=
  decodeAt .strict type [] json

/-- Decode a whole document and drop attributes that the type does not declare. -/
def ofJsonLenient (type : AttributeType) (json : Json) : Except ValueError Value :=
  decodeAt .lenient type [] json

end Value
end ProviderKit
