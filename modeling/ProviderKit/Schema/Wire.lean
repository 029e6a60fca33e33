import ProviderKit.Schema.Basic

/-!
# Schemas on the wire

What the host is told about a schema.  Every block carries the version of the
schema it belongs to.  The protocol has a signed field for versions, so a version
of the upper half of 64 bits wraps around.
-/

namespace ProviderKit

/-- An attribute as the host is told. -/
structure WireAttribute where
  name : String
  type : Json
  description : String
  required : Bool
  optional : Bool
  computed : Bool
  sensitive : Bool
  deprecated : Bool

mutual

structure WireBlock where
  version : Int64
  attributes : List WireAttribute
  blockTypes : List WireNestedBlock
  description : String
  deprecated : Bool

/-- A nested block as the host is told.  Its mode is a number. -/
structure WireNestedBlock where
  typeName : String
  block : WireBlock
  nesting : Nat
  minItems : Nat
  maxItems : Nat

end

structure WireSchema where
  version : Int64
  block : WireBlock

namespace NestingMode

/-- The number of a mode in the protocol. -/
def toWire : NestingMode → Nat
  | single => 1
  | list => 2
  | set => 3
  | map => 4

end NestingMode

namespace Attribute

/-- What the host is told about an attribute. -/
def toWire (name : String) (attr : Attribute) : WireAttribute where
  name := name
  type := attr.type.typeConstraint
  description := attr.description.getD ""
  required := attr.flags.required
  optional := attr.flags.optional
  computed := attr.flags.computed
  sensitive := attr.flags.sensitive
  deprecated := attr.deprecationMessage.isSome

end Attribute

namespace Block

mutual

/-- What the host is told about a block of a schema with a version. -/
def toWire (version : Int64) : Block → WireBlock
  | ⟨attributes, blocks, description⟩ =>
    { version
      attributes := attributes.map fun (name, attr) => attr.toWire name
      blockTypes := toWireBlocks version blocks
      description := description.getD ""
      deprecated := false }

def toWireBlocks (version : Int64) : List (String × NestedBlock) → List WireNestedBlock
  | [] => []
  | (name, ⟨block, mode, minItems, maxItems⟩) :: rest =>
    { typeName := name
      block := block.toWire version
      nesting := mode.toWire
      minItems := minItems.toNat
      maxItems := maxItems.toNat } :: toWireBlocks version rest

end

end Block

namespace Schema

def toWire (schema : Schema) : WireSchema where
  version := schema.version.toInt64
  block := schema.block.toWire schema.version.toInt64

end Schema
end ProviderKit
