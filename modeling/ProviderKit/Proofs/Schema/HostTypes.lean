import ProviderKit.Proofs.Induction
import ProviderKit.Proofs.Schema.WellFormed
import ProviderKit.Schema.Wire

/-!
# The types that a host works with

A host never sees a value type.  It is told about attributes and nested blocks and puts an object
type together from what it is told, and it sends values of that type.  `hostType?` is this other
reading of a schema: every attribute and every nested block contributes a member in the order in
which they are told, a later member takes the place of an earlier one of the same name, and the
number of a mode says how the occurrences of a block are collected.

The host is told one type of numbers only.  Apart from that a type can be recovered from what the
host is told about it.
-/

namespace ProviderKit

/-! ## What a host makes of a description -/

/-- The constraint of all occurrences of a block together, from the number of its mode and the
constraint of one of them.  The protocol gives no meaning to other numbers. -/
def hostOccurrences? (nesting : Nat) (occurrence : Json) : Option Json :=
  match nesting with
  | 1 => some occurrence
  | 2 => some (.array [.string "list", occurrence])
  | 3 => some (.array [.string "set", occurrence])
  | 4 => some (.array [.string "map", occurrence])
  | _ => none

namespace WireBlock

mutual

/-- The constraint of the objects that a host takes a block for. -/
def hostType? : WireBlock → Option Json
  | ⟨_, attributes, blockTypes, _, _⟩ => do
    let blocks ← hostBlockTypes? blockTypes
    let members := attributes.map (fun attr => (attr.name, attr.type)) ++ blocks
    some (.array [.string "object", .object (Entries.ofPairs members)])

/-- The members that nested blocks contribute. -/
def hostBlockTypes? : List WireNestedBlock → Option (List (String × Json))
  | [] => some []
  | ⟨name, block, nesting, _, _⟩ :: rest => do
    let occurrence ← block.hostType?
    let type ← hostOccurrences? nesting occurrence
    let others ← hostBlockTypes? rest
    some ((name, type) :: others)

end

end WireBlock

/-- The constraint of the values that a host takes a schema for. -/
def WireSchema.hostType? (schema : WireSchema) : Option Json :=
  schema.block.hostType?

namespace Block

/-- The attributes are in name order, at every level. -/
inductive AttributesOrdered : Block → Prop
  | intro {block : Block} (sorted : Entries.Sorted block.attributes)
      (inner : ∀ entry ∈ block.blocks, AttributesOrdered entry.2.block) : AttributesOrdered block

end Block

/-! ## The host's type of a block -/

theorem AttributeType.typeConstraints_eq_mapValues (types : List (String × AttributeType)) :
    typeConstraints types = Entries.mapValues typeConstraint types := by
  induction types with
  | nil => rfl
  | cons entry rest inductionHypothesis =>
      exact congrArg ((entry.1, entry.2.typeConstraint) :: ·) inductionHypothesis

theorem NestingMode.hostOccurrences?_toWire (mode : NestingMode) (type : AttributeType) :
    hostOccurrences? mode.toWire type.typeConstraint = some (mode.wrap type).typeConstraint := by
  cases mode <;> rfl

namespace Block

/-- The members that a host reads off nested blocks have the types of the blocks. -/
theorem hostBlockTypes?_toWireBlocks (version : Int64) {blocks : List (String × NestedBlock)}
    (each : ∀ entry ∈ blocks, (entry.2.block.toWire version).hostType? =
      some entry.2.block.valueType.typeConstraint) :
    WireBlock.hostBlockTypes? (toWireBlocks version blocks) =
      some (Entries.mapValues (fun nested => nested.valueType.typeConstraint) blocks) := by
  induction blocks with
  | nil => rfl
  | cons entry rest inductionHypothesis =>
      rcases entry with ⟨name, block, mode, minItems, maxItems⟩
      rcases List.forall_mem_cons.mp each with ⟨first, later⟩
      rw [toWireBlocks, WireBlock.hostBlockTypes?, first, inductionHypothesis later]
      simp only [bind, Option.bind, NestingMode.hostOccurrences?_toWire]
      rfl

theorem mapValues_addBlockTypes (types : List (String × AttributeType))
    (blocks : List (String × NestedBlock)) :
    Entries.mapValues AttributeType.typeConstraint (addBlockTypes types blocks) =
      (Entries.mapValues (fun nested => nested.valueType.typeConstraint) blocks).foldl
        (fun entries pair => Entries.insert pair.1 pair.2 entries)
        (Entries.mapValues AttributeType.typeConstraint types) := by
  induction blocks generalizing types with
  | nil => rfl
  | cons entry rest inductionHypothesis =>
      rcases entry with ⟨name, nested⟩
      rw [addBlockTypes_cons, inductionHypothesis, Entries.mapValues_insert]
      rfl

theorem hostType?_toWire (version : Int64) (attributes : List (String × Attribute))
    (blocks : List (String × NestedBlock)) (description : Option String) :
    (toWire version ⟨attributes, blocks, description⟩).hostType? =
      (WireBlock.hostBlockTypes? (toWireBlocks version blocks)).map fun told =>
        .array [.string "object", .object (Entries.ofPairs (Entries.mapValues
          (fun attr => attr.type.typeConstraint) attributes ++ told))] := by
  rw [toWire, WireBlock.hostType?, List.map_map]
  cases WireBlock.hostBlockTypes? (toWireBlocks version blocks) <;> rfl

/-- What a host makes of a block is the type of its values. -/
theorem AttributesOrdered.hostType?_eq {block : Block} (ordered : block.AttributesOrdered)
    (version : Int64) :
    (block.toWire version).hostType? = some block.valueType.typeConstraint := by
  induction ordered with
  | @intro block sorted inner inductionHypothesis =>
      rcases block with ⟨attributes, blocks, description⟩
      let constraint := fun attr : Attribute => attr.type.typeConstraint
      have inOrder : Entries.ofPairs (Entries.mapValues constraint attributes) =
          Entries.mapValues constraint attributes :=
        Entries.ofPairs_of_sorted ((Entries.sorted_congr (Entries.keys_mapValues _ _)).mpr sorted)
      have constraints : Entries.mapValues constraint attributes =
          Entries.mapValues AttributeType.typeConstraint
            (Entries.mapValues Attribute.type attributes) := by
        simp [Entries.mapValues, constraint]
      rw [hostType?_toWire, hostBlockTypes?_toWireBlocks version inductionHypothesis,
        Option.map_some, Entries.ofPairs_append, inOrder, constraints, ← mapValues_addBlockTypes,
        ← AttributeType.typeConstraints_eq_mapValues]
      rfl

end Block

/-! ## Types with one constraint -/

namespace AttributeType

/-- The types differ in nothing but whole numbers here and any numbers there. -/
inductive SameUpToNumbers : AttributeType → AttributeType → Prop
  | string : SameUpToNumbers .string .string
  | int64 : SameUpToNumbers .int64 .int64
  | float64 : SameUpToNumbers .float64 .float64
  | int64_float64 : SameUpToNumbers .int64 .float64
  | float64_int64 : SameUpToNumbers .float64 .int64
  | bool : SameUpToNumbers .bool .bool
  | list {element other : AttributeType} (inner : SameUpToNumbers element other) :
      SameUpToNumbers (.list element) (.list other)
  | set {element other : AttributeType} (inner : SameUpToNumbers element other) :
      SameUpToNumbers (.set element) (.set other)
  | map {element other : AttributeType} (inner : SameUpToNumbers element other) :
      SameUpToNumbers (.map element) (.map other)
  | object {attributes others : List (String × AttributeType)}
      (names : Entries.keys attributes = Entries.keys others)
      (types : List.Forall₂ SameUpToNumbers (Entries.values attributes) (Entries.values others)) :
      SameUpToNumbers (.object attributes) (.object others)
  | dynamic : SameUpToNumbers .dynamic .dynamic

variable {element other : AttributeType} {attributes others : List (String × AttributeType)}

theorem sameUpToNumbers_list_iff :
    SameUpToNumbers (.list element) (.list other) ↔ SameUpToNumbers element other := by
  refine ⟨fun same => ?_, .list⟩
  cases same
  assumption

theorem sameUpToNumbers_set_iff :
    SameUpToNumbers (.set element) (.set other) ↔ SameUpToNumbers element other := by
  refine ⟨fun same => ?_, .set⟩
  cases same
  assumption

theorem sameUpToNumbers_map_iff :
    SameUpToNumbers (.map element) (.map other) ↔ SameUpToNumbers element other := by
  refine ⟨fun same => ?_, .map⟩
  cases same
  assumption

theorem sameUpToNumbers_object_iff :
    SameUpToNumbers (.object attributes) (.object others) ↔
      Entries.Paired SameUpToNumbers attributes others := by
  refine ⟨fun same => ?_, fun paired => .object paired.1 paired.2⟩
  cases same with
  | object names types => exact ⟨names, types⟩

/-- The constraints of named types are the same when the names are and each type has the same. -/
theorem typeConstraints_eq_iff
    (each : ∀ entry ∈ attributes, ∀ other : AttributeType,
      entry.2.typeConstraint = other.typeConstraint ↔ SameUpToNumbers entry.2 other) :
    typeConstraints attributes = typeConstraints others ↔
      Entries.Paired SameUpToNumbers attributes others := by
  induction attributes generalizing others with
  | nil => cases others <;> simp [typeConstraints, Entries.Paired, Entries.values, Entries.keys]
  | cons entry rest inductionHypothesis =>
      rcases List.forall_mem_cons.mp each with ⟨first, later⟩
      cases others with
      | nil => simp [typeConstraints, Entries.Paired, Entries.keys]
      | cons other others =>
          rw [typeConstraints, typeConstraints, List.cons.injEq, Prod.mk.injEq,
            Entries.paired_cons_iff, first, inductionHypothesis later, and_assoc]

/-- A host is told the same of two types exactly when they differ in their numbers at most. -/
theorem typeConstraint_eq_iff (type other : AttributeType) :
    type.typeConstraint = other.typeConstraint ↔ SameUpToNumbers type other := by
  induction type using AttributeType.induct generalizing other with
  | string | bool | dynamic | int64 | float64 =>
      cases other <;>
        first
          | exact iff_of_true rfl (by constructor)
          | exact iff_of_false (by simp [typeConstraint]) nofun
  | list element inductionHypothesis =>
      cases other with
      | list other =>
          rw [sameUpToNumbers_list_iff, ← inductionHypothesis]
          simp [typeConstraint]
      | _ => exact iff_of_false (by simp [typeConstraint]) nofun
  | set element inductionHypothesis =>
      cases other with
      | set other =>
          rw [sameUpToNumbers_set_iff, ← inductionHypothesis]
          simp [typeConstraint]
      | _ => exact iff_of_false (by simp [typeConstraint]) nofun
  | map element inductionHypothesis =>
      cases other with
      | map other =>
          rw [sameUpToNumbers_map_iff, ← inductionHypothesis]
          simp [typeConstraint]
      | _ => exact iff_of_false (by simp [typeConstraint]) nofun
  | object attributes inductionHypothesis =>
      cases other with
      | object others =>
          rw [sameUpToNumbers_object_iff, ← typeConstraints_eq_iff inductionHypothesis]
          simp [typeConstraint]
      | _ => exact iff_of_false (by simp [typeConstraint]) nofun

end AttributeType

/-! ## Agreement on the shape of values -/

namespace Schema

/-- The type that a host puts together from what it is told about a schema is the type of the
values of the schema, and what a host is told about a type determines it up to the distinction
between whole numbers and any numbers. -/
theorem host_agrees_on_types (schema : Schema) (ordered : schema.block.AttributesOrdered) :
    schema.toWire.hostType? = some schema.valueType.typeConstraint ∧
      ∀ type other : AttributeType, type.typeConstraint = other.typeConstraint ↔
        AttributeType.SameUpToNumbers type other :=
  ⟨ordered.hostType?_eq _, AttributeType.typeConstraint_eq_iff⟩

/-- A listener for ports of a range.  Its rules stand in a set, under the name of an attribute. -/
def listenerSchema : Schema :=
  let range : Block := ⟨[("from", ⟨.int64, {}, none, false, none, none⟩),
    ("to", ⟨.float64, {}, none, false, none, none⟩)], [], none⟩
  let rule : Block := ⟨[("tags", ⟨.map .string, {}, none, false, none, none⟩)],
    [("range", .ofMode .list range)], none⟩
  ⟨1, ⟨[("name", ⟨.string, {}, none, false, none, none⟩),
    ("rule", ⟨.string, {}, none, false, none, none⟩)], [("rule", .ofMode .set rule)], none⟩⟩

theorem listenerSchema_ordered : listenerSchema.block.AttributesOrdered := by
  have bounds : "from" < "to" := String.lt_iff_toList_lt.mpr (by decide)
  have names : "name" < "rule" := String.lt_iff_toList_lt.mpr (by decide)
  refine .intro (List.pairwise_pair.mpr names) (List.forall_mem_singleton.mpr ?_)
  refine .intro (List.pairwise_singleton _ _) (List.forall_mem_singleton.mpr ?_)
  exact .intro (List.pairwise_pair.mpr bounds) (List.forall_mem_nil _)

/-- The nested block takes the place of the attribute of its name, for the host as well. -/
theorem host_agrees_on_listeners :
    let bounds := Json.object [("from", .string "number"), ("to", .string "number")]
    let ranges := Json.array [.string "list", .array [.string "object", bounds]]
    let rule := Json.object [("range", ranges), ("tags", .array [.string "map", .string "string"])]
    let rules := Json.array [.string "set", .array [.string "object", rule]]
    listenerSchema.block.AttributesOrdered ∧
      listenerSchema.toWire.hostType? =
        some (.array
          [.string "object", .object [("name", .string "string"), ("rule", rules)]]) := by
  intro bounds ranges rule rules
  refine ⟨listenerSchema_ordered, ?_⟩
  rw [(host_agrees_on_types listenerSchema listenerSchema_ordered).1]
  rfl

end Schema
end ProviderKit
