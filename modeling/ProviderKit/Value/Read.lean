import ProviderKit.Value.Error
import ProviderKit.Value.Basic

/-!
# Typed reads

A provider reads an attribute in a shape of its choice.  The plain shapes refuse
null and unknown values; an optional shape accepts null, and an observed primitive
may be either and tells them apart.  Every shape names the type of its results, and
a result can be turned back into a value, except where the shape has a map, whose
result could come from a map or an object.
-/

namespace ProviderKit

/-- A plain shape, of results that are neither null nor unknown. -/
inductive Primitive where
  | string
  | int64
  | float64
  | bool
deriving DecidableEq

/-- What is known about an attribute. -/
inductive AttributeValue (α : Type) where
  /-- The attribute is not set. -/
  | null
  /-- The attribute is known only after apply. -/
  | unknown
  | known (value : α)
deriving DecidableEq

/-- The shape of a read. -/
inductive ReadShape where
  /-- The value itself. -/
  | value
  | primitive (of : Primitive)
  /-- A primitive that may be null or unknown. -/
  | observed (of : Primitive)
  /-- A shape, or null. -/
  | optional (of : ReadShape)
  /-- The elements of a list or a set. -/
  | list (of : ReadShape)
  /-- The entries of a map or an object. -/
  | map (of : ReadShape)
deriving DecidableEq

namespace AttributeValue

variable {α β : Type}

def isNull : AttributeValue α → Bool
  | null => true
  | _ => false

/-- Whether the attribute is known only after apply. -/
def isUnknown : AttributeValue α → Bool
  | unknown => true
  | _ => false

def known? : AttributeValue α → Option α
  | known value => some value
  | _ => none

def getD (observed : AttributeValue α) (default : α) : α :=
  observed.known?.getD default

def toValue (convert : α → Value) : AttributeValue α → Value
  | null => .null
  | unknown => .unknown
  | known value => convert value

end AttributeValue

namespace Primitive

abbrev Result : Primitive → Type
  | string => String
  | int64 => Int
  | float64 => Binary64
  | bool => Bool

/-- The name of a primitive in diagnostics. -/
def name : Primitive → String
  | string => "string"
  | int64 => "int64"
  | float64 => "float64"
  | bool => "bool"

/-- The result that stands in for an attribute that is not known. -/
def zero : (p : Primitive) → p.Result
  | string => ""
  | int64 => (0 : Int)
  | float64 => Binary64.zero
  | bool => false

/-- The result in a value of the right kind. -/
def extract? : (p : Primitive) → Value → Option p.Result
  | string, .string s => some s
  | int64, .number n => n.asInt64?
  | float64, .number n => n.toBinary64?
  | bool, .bool b => some b
  | _, _ => none

/-- Read a primitive at a path. -/
def read (p : Primitive) (path : Path) : Value → Except ValueError p.Result
  | .null => .error (.null path)
  | .unknown => .error (.unknown path)
  | other =>
    match p.extract? other with
    | some result => .ok result
    | none => .error (.typeMismatch path p.name other.typeName)

def toValue : (p : Primitive) → p.Result → Value
  | string, s => .string s
  | int64, i => Value.int i
  | float64, x => .number (.float x)
  | bool, b => .bool b

end Primitive

namespace ReadShape

/-- The results of a read. -/
abbrev Result : ReadShape → Type
  | value => Value
  | primitive p => p.Result
  | observed p => AttributeValue p.Result
  | optional shape => Option shape.Result
  | list shape => List shape.Result
  | map shape => List (String × shape.Result)

/-- The elements of a list or a set, each read at its index. -/
def readElements {α : Type} (read : Path → Value → Except ValueError α) (path : Path)
    (elements : List Value) : Except ValueError (List α) :=
  elements.zipIdx.mapM fun (element, index) => read (path.atIndex index) element

/-- The entries of a map or an object, each read at its key. -/
def readEntries {α : Type} (read : Path → Value → Except ValueError α) (path : Path)
    (entries : List (String × Value)) : Except ValueError (List (String × α)) :=
  entries.mapM fun (key, entry) => do
    let result ← read (path.atKey key) entry
    .ok (key, result)

/-- Read a value that stands at a path. -/
def read : (shape : ReadShape) → Path → Value → Except ValueError shape.Result
  | value, _, found => .ok found
  | primitive p, path, found => p.read path found
  | observed p, path, found =>
    match found with
    | .null => .ok .null
    | .unknown => .ok .unknown
    | other => (p.read path other).map .known
  | optional shape, path, found =>
    match found with
    | .null => .ok none
    | other => (shape.read path other).map some
  | list shape, path, found =>
    match found with
    | .list elements => readElements shape.read path elements
    | .set elements => readElements shape.read path elements
    | .null => .error (.null path)
    | .unknown => .error (.unknown path)
    | other => .error (.typeMismatch path "list" other.typeName)
  | map shape, path, found =>
    match found with
    | .map entries => readEntries shape.read path entries
    | .object attributes => readEntries shape.read path attributes
    | .null => .error (.null path)
    | .unknown => .error (.unknown path)
    | other => .error (.typeMismatch path "map" other.typeName)

/-- Whether results determine a value: there is no map in the shape. -/
def isReversible : ReadShape → Bool
  | value => true
  | primitive _ => true
  | observed _ => true
  | optional shape => shape.isReversible
  | list shape => shape.isReversible
  | map _ => false

/-- The value of a result.  It means nothing for a map. -/
def toValue : (shape : ReadShape) → shape.Result → Value
  | value, found => found
  | primitive p, result => p.toValue result
  | observed p, result => result.toValue p.toValue
  | optional _, none => .null
  | optional shape, some result => shape.toValue result
  | list shape, results => .list (results.map shape.toValue)
  | map _, _ => .null

/-- The value of a result; nothing when the shape has a map. -/
def toValue? (shape : ReadShape) (result : shape.Result) : Option Value :=
  if shape.isReversible then some (shape.toValue result) else none

end ReadShape
end ProviderKit
