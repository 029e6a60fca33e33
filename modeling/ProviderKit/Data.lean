import ProviderKit.Diagnostic
import ProviderKit.Schema.Basic
import ProviderKit.Value.Access
import ProviderKit.Value.Decode
import ProviderKit.Value.Read

/-!
# Data bound to a schema

What callbacks receive and return: a configuration, a state or a plan, each a value
together with the schema it belongs to.  Reads and writes report failures as
diagnostics, ready to be added to a response.

A write to a path that ends in a name is checked against the type of the attribute that
it leads to.  Where it leads into an attribute, it is checked against the type of the whole
attribute all the same.  A write to an element, to an entry or to a block is not checked,
and a configuration is only read.
-/

namespace ProviderKit

/-- What schema-bound data stands for. -/
inductive DataRole where
  /-- Written by the practitioner. -/
  | config
  /-- Recorded for a resource or a data source. -/
  | state
  /-- The planned new state of a resource. -/
  | plan
deriving DecidableEq

namespace DataRole

theorem state_ne_config : state ≠ config := by
  decide

theorem plan_ne_config : plan ≠ config := by
  decide

end DataRole

/-- A value together with its schema. -/
structure Data (role : DataRole) where
  schema : Schema
  raw : Value

abbrev Config := Data .config

abbrev State := Data .state

abbrev Plan := Data .plan

namespace Data

variable {role : DataRole}

instance : Inhabited (Data role) := ⟨⟨default, .null⟩⟩

def null (schema : Schema) : Data role :=
  ⟨schema, .null⟩

def isNull (data : Data role) : Bool :=
  data.raw.isNull

/-- The diagnostic for a value at a path that could not be converted.  It concerns the
attribute at the path, or no attribute when the path is empty. -/
def conversionError (path : Path) (error : ValueError) : Diagnostic :=
  let detail :=
    "An unexpected error was encountered converting the value at \"" ++ path.display ++
    "\". This is always a bug in the provider.\n\n" ++ error.message
  if path.isEmpty then .error "Value Conversion Error" detail
  else .attributeError path "Value Conversion Error" detail

/-- Read what stands at a path in a shape. -/
def get (data : Data role) (path : Path) (shape : ReadShape) :
    Except Diagnostics shape.Result :=
  match data.raw.getAt path with
  | .error error => .error [conversionError path error]
  | .ok found =>
    match shape.read path found with
    | .error error => .error [conversionError path error]
    | .ok result => .ok result

/-- Read the whole value with a reader of documents.  Nothing may be unknown. -/
def getAll {α : Type} (data : Data role) (reader : Json → Except String α) :
    Except Diagnostics α :=
  match data.raw.unknownPaths with
  | path :: _ => .error [conversionError path (.unknown path)]
  | [] =>
    match reader data.raw.toJson with
    | .ok result => .ok result
    | .error reason =>
      .error [.error "Value Conversion Error" ("Unable to deserialize the object: " ++ reason)]

def endsInName (path : Path) : Bool :=
  match path.getLast? with
  | some (.name _) => true
  | _ => false

/-- A value as it may be written at a path: checked against the type of the attribute
when the path ends in the name of one. -/
def conform (schema : Schema) (path : Path) (value : Value) : Except ValueError Value :=
  match schema.attributeAt? path with
  | some attr => if endsInName path then Value.ofJson attr.type value.toJson else .ok value
  | none => .ok value

def set (data : Data role) (path : Path) (value : Value)
    (_writable : role ≠ .config := by decide) : Data role × Diagnostics :=
  match conform data.schema path value with
  | .error error => (data, [conversionError path error])
  | .ok conforming =>
    let (raw, error?) := data.raw.setAt path conforming
    ({ data with raw }, (error?.map (conversionError path)).toList)

/-- Replace the whole value by a document, or report why there is none. -/
def setAll (data : Data role) (document : Except String Json)
    (_writable : role ≠ .config := by decide) : Data role × Diagnostics :=
  match document with
  | .error reason =>
    (data, [.error "Value Conversion Error" ("Unable to serialize the object: " ++ reason)])
  | .ok json =>
    match Value.ofJson data.schema.valueType json with
    | .error error => (data, [conversionError [] error])
    | .ok raw => ({ data with raw }, [])

/-- The state of a resource that is gone. -/
def removed (state : State) : State :=
  { state with raw := .null }

end Data
end ProviderKit
