import ProviderKit.Number.Decimal
import ProviderKit.Text.Quoted

/-!
# Paths

A path addresses a value inside a larger one: the name of an attribute or a
nested block, the key of a map entry, or the index of a list or set element, one
step after the other.  The empty path addresses the whole.

On the wire a step may lack its selector.  Such steps carry no information and
are dropped when a path is read; a path that is written has none of them, so
reading it gives the same path.
-/

namespace ProviderKit

inductive PathStep where
  | name (word : String)
  | key (word : String)
  | index (number : Int)
deriving DecidableEq

/-- Steps from the outside to the inside. -/
abbrev Path := List PathStep

/-- A path as the protocol carries it, in which a step may be without a selector. -/
abbrev WirePath := List (Option PathStep)

namespace PathStep

/-- The text of a step that follows another. -/
def text : PathStep → List Char
  | .name word => '.' :: word.toList
  | .key word => '[' :: (Text.quoted word).toList ++ [']']
  | .index number => '[' :: (decimalText number).toList ++ [']']

/-- The text of a first step, whose name has no dot before it. -/
def leadingText : PathStep → List Char
  | .name word => word.toList
  | other => other.text

end PathStep

namespace Path

/-- The path of a top-level attribute. -/
def root (name : String) : Path :=
  [.name name]

/-- The path one attribute further in. -/
def atName (path : Path) (name : String) : Path :=
  path ++ [.name name]

/-- The path one map entry further in. -/
def atKey (path : Path) (key : String) : Path :=
  path ++ [.key key]

/-- The path one list or set element further in. -/
def atIndex (path : Path) (index : Nat) : Path :=
  path ++ [.index index]

/-- The path without its last step; nothing for the empty path. -/
def parent? (path : Path) : Option Path :=
  if path.isEmpty then none else some path.dropLast

/-- The text of a path in messages. -/
def display : Path → String
  | [] => ""
  | first :: rest => String.ofList (first.leadingText ++ rest.flatMap PathStep.text)

def toWire (path : Path) : WirePath :=
  path.map some

def ofWire (wire : WirePath) : Path :=
  wire.filterMap id

theorem ofWire_toWire (path : Path) : ofWire path.toWire = path := by
  simp [ofWire, toWire, List.filterMap_map]

end Path
end ProviderKit
