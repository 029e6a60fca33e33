import ProviderKit.Value.Error
import ProviderKit.Value.Basic

/-!
# Reading and writing along a path

Reading goes through null and unknown values without looking at the rest of the
path, and a missing entry or element reads as null.  A step that does not suit the
value it meets is an error, and so is a missing attribute, because the attributes
of an object are fixed.

Writing creates what is missing: a null value becomes the container that the step
asks for, a missing attribute or entry is added, and an index may stand just
behind the last element.  A write that fails further in leaves what it has created
on the way.
-/

namespace ProviderKit
namespace Value

/-- The element at an index that may lie outside. -/
def elementAt (elements : List Value) (index : Int) : Value :=
  if index < 0 then null else elements[index.toNat]?.getD null

/-- The value at the end of a path; nothing when a step does not suit. -/
def follow? : Path → Value → Option Value
  | [], current => some current
  | step :: rest, current =>
    match current, step with
    | null, _ => some null
    | unknown, _ => some unknown
    | object attributes, .name name => (Entries.find? name attributes).bind (follow? rest)
    | map entries, .key key => follow? rest ((Entries.find? key entries).getD null)
    | list elements, .index index => follow? rest (elementAt elements index)
    | set elements, .index index => follow? rest (elementAt elements index)
    | _, _ => none

/-- The value at a path.  An error carries the whole path. -/
def getAt (value : Value) (path : Path) : Except ValueError Value :=
  match value.follow? path with
  | some found => .ok found
  | none => .error (.invalidPath path)

/-- The container a step asks for where there is none. -/
def containerFor : PathStep → Value
  | .name _ => object []
  | .key _ => map []
  | .index _ => list []

/-- Replace an element, or add it behind the last one. -/
def putElement (elements : List Value) (index : Nat) (element : Value) : List Value :=
  if index < elements.length then elements.set index element else elements ++ [element]

/-- What a write leaves behind, and whether it reached the end of its path. -/
structure Written where
  value : Value
  complete : Bool

/-- Apply a container to the outcome of a write inside it. -/
def Written.within (inner : Written) (container : Value → Value) : Written :=
  ⟨container inner.value, inner.complete⟩

/-- Write a value at the end of a path. -/
def writeAlong (new : Value) : Path → Value → Written
  | [], _ => ⟨new, true⟩
  | step :: rest, current =>
    let opened := if current.isNull then containerFor step else current
    let inside (elements : List Value) (index : Int) (container : List Value → Value) :=
      if 0 ≤ index ∧ index ≤ elements.length then
        (writeAlong new rest (elementAt elements index)).within fun element =>
          container (putElement elements index.toNat element)
      else ⟨opened, false⟩
    match opened, step with
    | object attributes, .name name =>
      (writeAlong new rest ((Entries.find? name attributes).getD null)).within fun inner =>
        object (Entries.insert name inner attributes)
    | map entries, .key key =>
      (writeAlong new rest ((Entries.find? key entries).getD null)).within fun inner =>
        map (Entries.insert key inner entries)
    | list elements, .index index => inside elements index list
    | set elements, .index index => inside elements index set
    | _, _ => ⟨opened, false⟩

/-- Write a value at a path.  The result is the value afterwards, and the error when
the path could not be followed to its end. -/
def setAt (value : Value) (path : Path) (new : Value) : Value × Option ValueError :=
  let written := writeAlong new path value
  (written.value, if written.complete then none else some (.invalidPath path))

mutual

/-- The paths of unknown values inside a value that stands at a path. -/
def unknownPathsFrom (path : Path) : Value → List Path
  | unknown => [path]
  | list elements => unknownPathsInElements path 0 elements
  | set elements => unknownPathsInElements path 0 elements
  | map entries => unknownPathsInEntries path entries
  | object attributes => unknownPathsInAttributes path attributes
  | _ => []

/-- The paths of unknown values inside elements, the first of which has an index. -/
def unknownPathsInElements (path : Path) (index : Nat) : List Value → List Path
  | [] => []
  | element :: rest =>
    unknownPathsFrom (path.atIndex index) element ++ unknownPathsInElements path (index + 1) rest

/-- The paths of unknown values inside the entries of a map. -/
def unknownPathsInEntries (path : Path) : List (String × Value) → List Path
  | [] => []
  | (key, value) :: rest =>
    unknownPathsFrom (path.atKey key) value ++ unknownPathsInEntries path rest

/-- The paths of unknown values inside the attributes of an object. -/
def unknownPathsInAttributes (path : Path) : List (String × Value) → List Path
  | [] => []
  | (name, value) :: rest =>
    unknownPathsFrom (path.atName name) value ++ unknownPathsInAttributes path rest

end

/-- The paths of all unknown values, in the order of the traversal. -/
def unknownPaths (value : Value) : List Path :=
  value.unknownPathsFrom []

end Value
end ProviderKit
