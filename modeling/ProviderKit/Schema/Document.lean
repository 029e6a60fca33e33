import ProviderKit.Json.Selection
import ProviderKit.Schema.Basic

/-!
# Schemas as documents

Types, attributes, blocks and schemas are read from JSON texts and written as JSON
documents.

A record is read from the members of an object.  A member that the record does not
know has no effect, and one that it knows may not be repeated.  Records that share
one object, such as the flags of an attribute and the attribute itself, are told
apart by the names of their members.  An object that is shared is read as a whole; of
a block that stands alone the unknown members are passed over, and what they hold only
has to follow the grammar.

A choice without parameters is a word, or an object with the word as its only
member.  The value of that member is null; inside a shared object an empty object
is accepted as well.
-/

namespace ProviderKit
namespace Document

/-- Reading a description; there is one way to fail, which is not explained. -/
abbrev Reading := Option

/-- The surroundings of a choice: alone, or somewhere inside a shared object. -/
inductive Surroundings where
  | alone
  | shared
deriving DecidableEq

/-- The members of an object in the order of the text. -/
def members? : Json → Reading (List (String × Json))
  | .object members => some members
  | _ => none

/-- The member with a name, when there is one.  It must not be repeated. -/
def field? (name : String) (members : List (String × Json)) : Reading (Option Json) :=
  match members.filter fun member => member.1 == name with
  | [] => some none
  | [member] => some (some member.2)
  | _ => none

/-- A member that may be missing, with the value to take then. -/
def fieldD {α : Type} (name : String) (members : List (String × Json)) (missing : α)
    (read : Json → Reading α) : Reading α := do
  match ← field? name members with
  | some json => read json
  | none => some missing

/-- A member that must be present. -/
def required {α : Type} (name : String) (members : List (String × Json))
    (read : Json → Reading α) : Reading α := do
  match ← field? name members with
  | some json => read json
  | none => none

/-- A member that may be missing or null. -/
def optional {α : Type} (name : String) (members : List (String × Json))
    (read : Json → Reading α) : Reading (Option α) :=
  fieldD name members none fun json =>
    if json.isNull then some none else (read json).map some

def readBool : Json → Reading Bool
  | .bool b => some b
  | _ => none

def readText : Json → Reading String
  | .string s => some s
  | _ => none

/-- A natural number below a bound, written as an integer. -/
def readNat (bound : Nat) : Json → Reading Nat
  | .number (.int n) => if 0 ≤ n ∧ n < bound then some n.toNat else none
  | _ => none

/-- Entries in key order, the last of several with one key. -/
def readEntries {α : Type} (read : Json → Reading α) (json : Json) :
    Reading (List (String × α)) := do
  let entries ← (← members? json).mapM fun (name, item) => do some (name, ← read item)
  some (Entries.ofPairs entries)

/-- Whether a document may stand as the value of a choice without parameters. -/
def isUnit (surroundings : Surroundings) : Json → Bool
  | .null => true
  | .object members => members.isEmpty && surroundings == .shared
  | _ => false

/-- The word of a choice without parameters. -/
def readWord (surroundings : Surroundings) : Json → Reading String
  | .string word => some word
  | .object [(word, value)] => if isUnit surroundings value then some word else none
  | _ => none

/-- The type that a word stands for. -/
def plainType? : String → Option AttributeType
  | "string" => some .string
  | "int64" => some .int64
  | "float64" => some .float64
  | "bool" => some .bool
  | "dynamic" => some .dynamic
  | _ => none

mutual

/-- A type: a word, or an object that names a collection and gives its parameter. -/
def readType (surroundings : Surroundings) : Json → Reading AttributeType
  | .string word => plainType? word
  | .object [(word, parameter)] =>
    if word = "list" then (readType surroundings parameter).map .list
    else if word = "set" then (readType surroundings parameter).map .set
    else if word = "map" then (readType surroundings parameter).map .map
    else if word = "object" then
      match parameter with
      | .object members =>
        (readTypes surroundings members).map fun types => .object (Entries.ofPairs types)
      | _ => none
    else if isUnit surroundings parameter then plainType? word
    else none
  | _ => none

/-- Named types in the order of the text. -/
def readTypes (surroundings : Surroundings) :
    List (String × Json) → Reading (List (String × AttributeType))
  | [] => some []
  | (name, json) :: rest => do
    let type ← readType surroundings json
    let types ← readTypes surroundings rest
    some ((name, type) :: types)

end

/-- The flags among the members of an attribute. -/
def readFlags (members : List (String × Json)) : Reading AttributeFlags := do
  some {
    required := ← required "required" members readBool
    optional := ← required "optional" members readBool
    computed := ← required "computed" members readBool
    sensitive := ← required "sensitive" members readBool }

def readAttribute (surroundings : Surroundings) (json : Json) : Reading Attribute := do
  let members ← members? json
  some {
    type := ← required "type" members (readType surroundings)
    flags := ← readFlags members
    description := ← optional "description" members readText
    requiresReplace := ← fieldD "requires_replace" members false readBool
    defaultValue := ← optional "default" members fun document => some document.inKeyOrder
    deprecationMessage := ← optional "deprecation_message" members readText }

/-- How a nested block repeats. -/
def readMode (surroundings : Surroundings) (json : Json) : Reading NestingMode := do
  match ← readWord surroundings json with
  | "single" => some .single
  | "list" => some .list
  | "set" => some .set
  | "map" => some .map
  | _ => none

/-- A block from the members of an object, with what was read of its nested blocks. -/
def blockOf (surroundings : Surroundings) (members : List (String × Json))
    (blocks : Reading (List (String × NestedBlock))) : Reading Block := do
  some {
    attributes := ← fieldD "attributes" members [] (readEntries (readAttribute surroundings))
    blocks := ← blocks
    description := ← optional "description" members readText }

/-- A nested block from the members of an object, with what was read of its block. -/
def nestedBlockOf (surroundings : Surroundings) (members : List (String × Json))
    (block : Reading Block) : Reading NestedBlock := do
  some {
    block := ← block
    mode := ← fieldD "nesting_mode" members .single (readMode surroundings)
    minItems := .ofNat (← fieldD "min_items" members 0 (readNat (2 ^ 32)))
    maxItems := .ofNat (← fieldD "max_items" members 0 (readNat (2 ^ 32))) }

mutual

/-- The nested blocks among the members of an object, which are those of a block. -/
def readBlocks (surroundings : Surroundings) :
    List (String × Json) → Reading (List (String × NestedBlock))
  | [] => some []
  | (name, json) :: rest =>
    if name = "blocks" then
      if rest.any fun member => member.1 == "blocks" then none
      else readNamedBlocks surroundings json
    else readBlocks surroundings rest

/-- Nested blocks in name order, the last of several with one name. -/
def readNamedBlocks (surroundings : Surroundings) : Json → Reading (List (String × NestedBlock))
  | .object items => (readBlockItems surroundings items).map Entries.ofPairs
  | _ => none

/-- Nested blocks in the order of the text.  The members of a nested block are shared
between its block and its repetition. -/
def readBlockItems (surroundings : Surroundings) :
    List (String × Json) → Reading (List (String × NestedBlock))
  | [] => some []
  | (name, .object members) :: rest => do
    let nested ← nestedBlockOf surroundings members
      (blockOf .shared members (readBlocks .shared members))
    let others ← readBlockItems surroundings rest
    some ((name, nested) :: others)
  | _ => none

end

/-- A block from the members of an object. -/
def readBlockMembers (surroundings : Surroundings) (members : List (String × Json)) :
    Reading Block :=
  blockOf surroundings members (readBlocks surroundings members)

/-- A block that stands alone.  Its parts may also be given by position. -/
def readBlock : Json → Reading Block
  | .object members => readBlockMembers .alone members
  | .array [attributes, blocks, description] =>
    readBlockMembers .alone
      [("attributes", attributes), ("blocks", blocks), ("description", description)]
  | _ => none

/-- A nested block, whose members are those of the block and of its repetition. -/
def readNestedBlock (surroundings : Surroundings) (json : Json) : Reading NestedBlock := do
  let members ← members? json
  nestedBlockOf surroundings members (readBlockMembers .shared members)

/-- A schema, whose members are those of its block and the version. -/
def readSchema (json : Json) : Reading Schema := do
  let members ← members? json
  some {
    version := .ofNat (← fieldD "version" members 0 (readNat (2 ^ 64)))
    block := ← readBlockMembers .shared members }

/-- Whether a block has a member of this name. -/
def isBlockMember (name : String) : Bool :=
  name == "attributes" || name == "blocks" || name == "description"

/-- What a text gives, when it is a document. -/
def ofReading {α : Type} (read : Json → Reading α) : Json.Reading Json → Reading α
  | .ok json => read json
  | .error _ => none

/-- The type that a whole text describes. -/
def parseType? (text : String) : Reading AttributeType :=
  ofReading (readType .alone) (Json.parseAsWritten text)

def parseAttribute? (text : String) : Reading Attribute :=
  ofReading (readAttribute .alone) (Json.parseAsWritten text)

def parseBlock? (text : String) : Reading Block :=
  ofReading readBlock (Json.parseSelection isBlockMember text)

def parseNestedBlock? (text : String) : Reading NestedBlock :=
  ofReading (readNestedBlock .alone) (Json.parseAsWritten text)

def parseSchema? (text : String) : Reading Schema :=
  ofReading readSchema (Json.parseAsWritten text)

/-- A member that is written only when there is something to write. -/
def optionalMember {α : Type} (name : String) (write : α → Json) :
    Option α → List (String × Json)
  | some value => [(name, write value)]
  | none => []

mutual

/-- The document of a type. -/
def ofType : AttributeType → Json
  | .list element => .object [("list", ofType element)]
  | .set element => .object [("set", ofType element)]
  | .map element => .object [("map", ofType element)]
  | .object attributes => .object [("object", .object (ofTypes attributes))]
  | plain => .string plain.name

def ofTypes : List (String × AttributeType) → List (String × Json)
  | [] => []
  | (name, type) :: rest => (name, ofType type) :: ofTypes rest

end

def attributeMembers (attr : Attribute) : List (String × Json) :=
  [ ("type", ofType attr.type),
    ("required", .bool attr.flags.required),
    ("optional", .bool attr.flags.optional),
    ("computed", .bool attr.flags.computed),
    ("sensitive", .bool attr.flags.sensitive),
    ("requires_replace", .bool attr.requiresReplace) ]
  ++ optionalMember "description" .string attr.description
  ++ optionalMember "default" id attr.defaultValue
  ++ optionalMember "deprecation_message" .string attr.deprecationMessage

def ofAttribute (attr : Attribute) : Json :=
  .object (Entries.ofPairs (attributeMembers attr))

def ofMode : NestingMode → Json
  | .single => .string "single"
  | .list => .string "list"
  | .set => .string "set"
  | .map => .string "map"

/-- The members for the repetition of a nested block. -/
def repetitionMembers (mode : NestingMode) (minItems maxItems : UInt32) :
    List (String × Json) :=
  [ ("nesting_mode", ofMode mode),
    ("min_items", .int minItems.toNat),
    ("max_items", .int maxItems.toNat) ]

/-- Entries as a member of a record, which is left out when there are none. -/
def entriesMember (name : String) (entries : List (String × Json)) : List (String × Json) :=
  if entries.isEmpty then [] else [(name, .object entries)]

mutual

def blockMembers : Block → List (String × Json)
  | ⟨attributes, blocks, description⟩ =>
    entriesMember "attributes" (Entries.mapValues ofAttribute attributes)
    ++ entriesMember "blocks" (nestedBlocks blocks)
    ++ optionalMember "description" .string description

def nestedBlocks : List (String × NestedBlock) → List (String × Json)
  | [] => []
  | (name, ⟨block, mode, minItems, maxItems⟩) :: rest =>
    (name, .object (Entries.ofPairs
      (blockMembers block ++ repetitionMembers mode minItems maxItems))) :: nestedBlocks rest

end

def ofNestedBlock (nested : NestedBlock) : Json :=
  .object (Entries.ofPairs (blockMembers nested.block ++
    repetitionMembers nested.mode nested.minItems nested.maxItems))

def ofSchema (schema : Schema) : Json :=
  .object (Entries.ofPairs (("version", .int schema.version.toNat) :: blockMembers schema.block))

end Document
end ProviderKit
