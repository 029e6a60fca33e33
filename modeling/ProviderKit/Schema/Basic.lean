import ProviderKit.AttributeType
import ProviderKit.Path

/-!
# Schemas

A schema describes the configuration and the state of a provider, a resource or a
data source: attributes with their types, and nested blocks that repeat in one of
four ways.  `valueType` is the object type of the values a schema describes.

A name that stands both for an attribute and for a block means the block in the
value type, while a path finds the attribute.
-/

namespace ProviderKit

/-- Who may set an attribute, and whether it is secret. -/
structure AttributeFlags where
  /-- The configuration must set it. -/
  required : Bool := false
  /-- The configuration may set it. -/
  optional : Bool := false
  /-- The provider may set it. -/
  computed : Bool := false
  /-- The host does not show it. -/
  sensitive : Bool := false
deriving DecidableEq

structure Attribute where
  type : AttributeType
  flags : AttributeFlags
  description : Option String := none
  /-- A planned change replaces the resource. -/
  requiresReplace : Bool := false
  /-- What is planned when the configuration leaves the attribute unset. -/
  defaultValue : Option Json := none
  /-- The warning for a configuration that still sets the attribute. -/
  deprecationMessage : Option String := none

/-- How a nested block repeats. -/
inductive NestingMode where
  /-- At most one, an object. -/
  | single
  /-- A list of objects. -/
  | list
  /-- A set of objects. -/
  | set
  /-- A map of objects. -/
  | map
deriving DecidableEq

mutual

/-- Attributes and nested blocks at one level of a schema, both in name order. -/
structure Block where
  attributes : List (String × Attribute)
  blocks : List (String × NestedBlock)
  description : Option String

/-- A block under a name, with its repetition.  A maximum of zero means no limit. -/
structure NestedBlock where
  block : Block
  mode : NestingMode
  minItems : UInt32
  maxItems : UInt32

end

/-- The schema of a provider, a resource or a data source.  The version is raised
when stored state has to be upgraded. -/
structure Schema where
  version : UInt64
  block : Block

namespace AttributeFlags

/-- Whether only the provider sets the attribute. -/
def isComputedOnly (flags : AttributeFlags) : Bool :=
  flags.computed && !flags.optional && !flags.required

end AttributeFlags

namespace Attribute

def withDescription (attr : Attribute) (text : String) : Attribute :=
  { attr with description := some text }

/-- The attribute whose changes replace the resource. -/
def replacing (attr : Attribute) : Attribute :=
  { attr with requiresReplace := true }

def withDefault (attr : Attribute) (document : Json) : Attribute :=
  { attr with defaultValue := some document }

/-- The attribute with a warning for those who still set it. -/
def deprecated (attr : Attribute) (message : String) : Attribute :=
  { attr with deprecationMessage := some message }

/-- The attribute as a secret. -/
def secret (attr : Attribute) : Attribute :=
  { attr with flags := { attr.flags with sensitive := true } }

end Attribute

namespace NestingMode

/-- The type of all occurrences of a block, from the type of one. -/
def wrap : NestingMode → AttributeType → AttributeType
  | single, type => type
  | list, type => .list type
  | set, type => .set type
  | map, type => .map type

end NestingMode

namespace NestedBlock

/-- A block that occurs in a mode.  A single block occurs at most once, and the other
modes have no limit. -/
def ofMode (mode : NestingMode) (block : Block) : NestedBlock where
  block := block
  mode := mode
  minItems := 0
  maxItems := if mode = .single then 1 else 0

/-- The block with a least number of occurrences. -/
def withMinItems (nested : NestedBlock) (count : UInt32) : NestedBlock :=
  { nested with minItems := count }

/-- The block with a greatest number of occurrences. -/
def withMaxItems (nested : NestedBlock) (count : UInt32) : NestedBlock :=
  { nested with maxItems := count }

end NestedBlock

namespace Block

def empty : Block :=
  ⟨[], [], none⟩

instance : Inhabited Block := ⟨empty⟩

def isEmpty (block : Block) : Bool :=
  block.attributes.isEmpty && block.blocks.isEmpty

def withAttribute (block : Block) (name : String) (attr : Attribute) : Block :=
  { block with attributes := Entries.insert name attr block.attributes }

def withBlock (block : Block) (name : String) (nested : NestedBlock) : Block :=
  { block with blocks := Entries.insert name nested block.blocks }

def withDescription (block : Block) (text : String) : Block :=
  { block with description := some text }

def attributeTypes (block : Block) : List (String × AttributeType) :=
  Entries.mapValues Attribute.type block.attributes

mutual

/-- The object type of the values of a block. -/
def valueType : Block → AttributeType
  | ⟨attributes, blocks, _⟩ =>
    .object (addBlockTypes (Entries.mapValues Attribute.type attributes) blocks)

/-- Types with those of nested blocks added, in place of types of the same name. -/
def addBlockTypes (types : List (String × AttributeType)) :
    List (String × NestedBlock) → List (String × AttributeType)
  | [] => types
  | (name, ⟨block, mode, _, _⟩) :: rest =>
    addBlockTypes (Entries.insert name (mode.wrap block.valueType) types) rest

end

/-- The attribute that a path leads to or through.  An index or a key has to choose
among the occurrences of a block that repeats; which one it is does not matter. -/
def attributeAt? : Path → Block → Option Attribute
  | .name name :: rest, block =>
    match Entries.find? name block.attributes with
    | some attr => some attr
    | none =>
      match Entries.find? name block.blocks with
      | none => none
      | some nested =>
        if nested.mode = .single then attributeAt? rest nested.block
        else
          match rest with
          | .index _ :: inner => attributeAt? inner nested.block
          | .key _ :: inner => attributeAt? inner nested.block
          | _ => none
  | _, _ => none

end Block

namespace Schema

def empty (version : UInt64) : Schema :=
  ⟨version, .empty⟩

instance : Inhabited Schema := ⟨empty 0⟩

def isEmpty (schema : Schema) : Bool :=
  schema.block.isEmpty

def withAttribute (schema : Schema) (name : String) (attr : Attribute) : Schema :=
  { schema with block := schema.block.withAttribute name attr }

def withBlock (schema : Schema) (name : String) (nested : NestedBlock) : Schema :=
  { schema with block := schema.block.withBlock name nested }

def withDescription (schema : Schema) (text : String) : Schema :=
  { schema with block := schema.block.withDescription text }

/-- The object type of the values of a schema. -/
def valueType (schema : Schema) : AttributeType :=
  schema.block.valueType

/-- The attribute that a path leads to or through. -/
def attributeAt? (schema : Schema) (path : Path) : Option Attribute :=
  schema.block.attributeAt? path

end Schema
end ProviderKit
