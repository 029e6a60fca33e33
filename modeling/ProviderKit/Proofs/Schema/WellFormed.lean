import ProviderKit.Proofs.Value.Parts
import ProviderKit.Schema.Basic

/-!
# Well formed schemas and the members of their values

A block keeps its attributes and its nested blocks in name order, and no name stands for
both.  An object of its type then has one member for each of them, and whatever is to be
shown of two such objects can be shown member by member, once for the attributes and once
for the nested blocks.
-/

namespace ProviderKit

/-- The type of all occurrences of a nested block together. -/
def NestedBlock.valueType (nested : NestedBlock) : AttributeType :=
  nested.mode.wrap nested.block.valueType

/-- The default, if there is one, decodes to a value without unknown parts. -/
def Attribute.DefaultKnown (attr : Attribute) : Prop :=
  ∀ document, attr.defaultValue = some document →
    ∃ value, Value.ofJson attr.type document = .ok value ∧ value.isFullyKnown = true

namespace Block

/-- Attributes and blocks are in name order and share no name, at every level. -/
inductive WellFormed : Block → Prop
  | intro {block : Block} (attributesSorted : Entries.Sorted block.attributes)
      (blocksSorted : Entries.Sorted block.blocks)
      (disjoint : ∀ name ∈ Entries.keys block.attributes, name ∉ Entries.keys block.blocks)
      (types : ∀ entry ∈ block.attributes, entry.2.type.WellFormed)
      (inner : ∀ entry ∈ block.blocks, WellFormed entry.2.block) : WellFormed block

/-- The defaults of all attributes are known, at every level. -/
inductive DefaultsKnown : Block → Prop
  | intro {block : Block} (attributes : ∀ entry ∈ block.attributes, entry.2.DefaultKnown)
      (inner : ∀ entry ∈ block.blocks, DefaultsKnown entry.2.block) : DefaultsKnown block

/-- The types of the members of an object that a block describes. -/
def memberTypes (block : Block) : List (String × AttributeType) :=
  addBlockTypes block.attributeTypes block.blocks

theorem valueType_eq (block : Block) : block.valueType = .object block.memberTypes := by
  cases block
  rfl

theorem addBlockTypes_cons (types : List (String × AttributeType)) (name : String)
    (nested : NestedBlock) (rest : List (String × NestedBlock)) :
    addBlockTypes types ((name, nested) :: rest) =
      addBlockTypes (Entries.insert name nested.valueType types) rest := by
  cases nested
  rfl

/-- A name finds the type of the nested block, and that of an attribute otherwise. -/
theorem find?_addBlockTypes {blocks : List (String × NestedBlock)}
    (nodup : (Entries.keys blocks).Nodup) (types : List (String × AttributeType)) (name : String) :
    Entries.find? name (addBlockTypes types blocks) =
      ((Entries.find? name blocks).map NestedBlock.valueType).or (Entries.find? name types) := by
  induction blocks generalizing types with
  | nil => rfl
  | cons entry rest inductionHypothesis =>
      rcases entry with ⟨key, nested⟩
      rcases List.nodup_cons.mp nodup with ⟨fresh, restNodup⟩
      rw [addBlockTypes_cons, inductionHypothesis restNodup]
      by_cases same : name = key
      · subst same
        rw [Entries.find?_cons_self, Entries.find?_eq_none_iff.mpr fresh, Entries.find?_insert_self]
        rfl
      · rw [Entries.find?_cons_of_ne (Ne.symm same), Entries.find?_insert_of_ne same]

theorem sorted_addBlockTypes {types : List (String × AttributeType)}
    (sorted : Entries.Sorted types) (blocks : List (String × NestedBlock)) :
    Entries.Sorted (addBlockTypes types blocks) := by
  induction blocks generalizing types with
  | nil => exact sorted
  | cons entry rest inductionHypothesis =>
      rw [addBlockTypes_cons]
      exact inductionHypothesis (Entries.Sorted.insert sorted _ _)

variable {block : Block} {name : String}

theorem DefaultsKnown.attribute (known : block.DefaultsKnown) {attr : Attribute}
    (found : Entries.find? name block.attributes = some attr) : attr.DefaultKnown := by
  cases known with
  | intro attributes => exact attributes _ (Entries.mem_of_find? found)

theorem DefaultsKnown.nested (known : block.DefaultsKnown) {nested : NestedBlock}
    (found : Entries.find? name block.blocks = some nested) : nested.block.DefaultsKnown := by
  cases known with
  | intro _ inner => exact inner _ (Entries.mem_of_find? found)

namespace WellFormed

/-- A block without nested blocks has nothing but its attributes in order. -/
theorem of_attributes {attributes : List (String × Attribute)} {description : Option String}
    (sorted : Entries.Sorted attributes)
    (types : ∀ entry ∈ attributes, entry.2.type.WellFormed) :
    WellFormed ⟨attributes, [], description⟩ :=
  .intro sorted .nil (fun _ _ => List.not_mem_nil) types
    (fun _ member => absurd member List.not_mem_nil)

theorem inside (wellFormed : block.WellFormed) {entry : String × NestedBlock}
    (member : entry ∈ block.blocks) : entry.2.block.WellFormed := by
  cases wellFormed with
  | intro _ _ _ _ inner => exact inner entry member

/-- Induction over a well formed block, in which every nested block is an induction hypothesis. -/
@[elab_as_elim]
theorem induct {motive : (block : Block) → block.WellFormed → Prop}
    (step : ∀ (block : Block) (wellFormed : block.WellFormed),
      (∀ entry (member : entry ∈ block.blocks), motive entry.2.block (wellFormed.inside member)) →
        motive block wellFormed)
    (block : Block) (wellFormed : block.WellFormed) : motive block wellFormed := by
  induction wellFormed with
  | intro attributesSorted blocksSorted disjoint types inner inductionHypothesis =>
      exact step _ (.intro attributesSorted blocksSorted disjoint types inner) inductionHypothesis

theorem attributesSorted (wellFormed : block.WellFormed) : Entries.Sorted block.attributes := by
  cases wellFormed with
  | intro sorted => exact sorted

theorem blocksSorted (wellFormed : block.WellFormed) : Entries.Sorted block.blocks := by
  cases wellFormed with
  | intro _ sorted => exact sorted

/-- No attribute has the name of a nested block. -/
theorem disjoint (wellFormed : block.WellFormed) :
    ∀ name ∈ Entries.keys block.attributes, name ∉ Entries.keys block.blocks := by
  cases wellFormed with
  | intro _ _ disjoint => exact disjoint

theorem attributesNodup (wellFormed : block.WellFormed) :
    (Entries.keys block.attributes).Nodup :=
  wellFormed.attributesSorted.nodup

theorem blocksNodup (wellFormed : block.WellFormed) : (Entries.keys block.blocks).Nodup :=
  wellFormed.blocksSorted.nodup

theorem attributeType (wellFormed : block.WellFormed) {attr : Attribute}
    (found : Entries.find? name block.attributes = some attr) : attr.type.WellFormed := by
  cases wellFormed with
  | intro _ _ _ types => exact types _ (Entries.mem_of_find? found)

theorem nested (wellFormed : block.WellFormed) {nested : NestedBlock}
    (found : Entries.find? name block.blocks = some nested) : nested.block.WellFormed :=
  wellFormed.inside (Entries.mem_of_find? found)

/-- The name of an attribute finds no nested block. -/
theorem find?_blocks (wellFormed : block.WellFormed) {attr : Attribute}
    (found : Entries.find? name block.attributes = some attr) :
    Entries.find? name block.blocks = none := by
  refine Entries.find?_eq_none_iff.mpr (wellFormed.disjoint name ?_)
  exact Entries.find?_isSome_iff.mp (found ▸ rfl)

/-- The name of a nested block finds no attribute. -/
theorem find?_attributes (wellFormed : block.WellFormed) {nested : NestedBlock}
    (found : Entries.find? name block.blocks = some nested) :
    Entries.find? name block.attributes = none := by
  cases absent : Entries.find? name block.attributes with
  | none => rfl
  | some attr =>
      rw [wellFormed.find?_blocks absent] at found
      cases found

theorem memberTypes_sorted (wellFormed : block.WellFormed) :
    Entries.Sorted block.memberTypes := by
  refine sorted_addBlockTypes ?_ _
  exact (Entries.sorted_congr (Entries.keys_mapValues _ _)).mpr wellFormed.attributesSorted

theorem find?_memberTypes_attribute (wellFormed : block.WellFormed) {attr : Attribute}
    (found : Entries.find? name block.attributes = some attr) :
    Entries.find? name block.memberTypes = some attr.type := by
  unfold memberTypes attributeTypes
  rw [find?_addBlockTypes wellFormed.blocksNodup, wellFormed.find?_blocks found,
    Entries.find?_mapValues, found]
  rfl

theorem find?_memberTypes_nested (wellFormed : block.WellFormed) {nested : NestedBlock}
    (found : Entries.find? name block.blocks = some nested) :
    Entries.find? name block.memberTypes = some nested.valueType := by
  unfold memberTypes
  rw [find?_addBlockTypes wellFormed.blocksNodup, found]
  rfl

/-- Every member belongs to an attribute or to a nested block. -/
theorem of_find?_memberTypes (wellFormed : block.WellFormed) {type : AttributeType}
    (found : Entries.find? name block.memberTypes = some type) :
    (∃ attr, Entries.find? name block.attributes = some attr ∧ type = attr.type) ∨
      ∃ nested, Entries.find? name block.blocks = some nested ∧ type = nested.valueType := by
  unfold memberTypes attributeTypes at found
  rw [find?_addBlockTypes wellFormed.blocksNodup, Entries.find?_mapValues] at found
  cases nestedFound : Entries.find? name block.blocks with
  | some nested =>
      rw [nestedFound] at found
      exact .inr ⟨nested, rfl, (Option.some.inj found).symm⟩
  | none =>
      rw [nestedFound, Option.map_none, Option.none_or] at found
      rcases Option.map_eq_some_iff.mp found with ⟨attr, attrFound, same⟩
      exact .inl ⟨attr, attrFound, same.symm⟩

theorem valueType (wellFormed : block.WellFormed) : block.valueType.WellFormed := by
  induction block, wellFormed using WellFormed.induct with
  | step block wellFormed inductionHypothesis =>
      rw [valueType_eq]
      refine .object wellFormed.memberTypes_sorted fun entry member => ?_
      have found := Entries.find?_of_mem wellFormed.memberTypes_sorted.nodup member
      rcases wellFormed.of_find?_memberTypes found with
        ⟨attr, declared, same⟩ | ⟨nested, declared, same⟩
      · exact same ▸ wellFormed.attributeType declared
      · have occurrence := inductionHypothesis _ (Entries.mem_of_find? declared)
        rw [same, NestedBlock.valueType]
        cases nested.mode with
        | single => exact occurrence
        | list => exact .list occurrence
        | set => exact .set occurrence
        | map => exact .map occurrence

end WellFormed

/-! ## Objects of a block -/

/-- The entries hold one value for each member of an object of the block. -/
def Covers (block : Block) (entries : List (String × Value)) : Prop :=
  Entries.keys entries = Entries.keys block.memberTypes

/-- A value of a block is null, unknown, or an object with the members of the block. -/
theorem cases_of_hasType {value : Value} (typed : Value.HasType block.valueType value) :
    value = .null ∨ value = .unknown ∨
      ∃ entries, value = .object entries ∧ block.Covers entries := by
  rw [valueType_eq] at typed
  cases typed with
  | null => exact .inl rfl
  | unknown => exact .inr (.inl rfl)
  | object keys => exact .inr (.inr ⟨_, rfl, keys⟩)

namespace WellFormed

/-- Two objects of a block are related member by member when the members are related. -/
theorem paired (wellFormed : block.WellFormed) {R : Value → Value → Prop}
    {xs ys : List (String × Value)} (left : block.Covers xs) (right : block.Covers ys)
    (attributes : ∀ name attr, Entries.find? name block.attributes = some attr →
      R ((Value.object xs).attributeNamed name) ((Value.object ys).attributeNamed name))
    (blocks : ∀ name nested, Entries.find? name block.blocks = some nested →
      R ((Value.object xs).attributeNamed name) ((Value.object ys).attributeNamed name)) :
    Entries.Paired R xs ys := by
  refine Entries.paired_of_find? (left.trans right.symm)
    (left ▸ wellFormed.memberTypes_sorted.nodup) ?_
  intro name x y foundLeft foundRight
  have atLeft : (Value.object xs).attributeNamed name = x := by
    rw [Value.attributeNamed_object, foundLeft]
    rfl
  have atRight : (Value.object ys).attributeNamed name = y := by
    rw [Value.attributeNamed_object, foundRight]
    rfl
  have present : name ∈ Entries.keys block.memberTypes :=
    left ▸ Entries.find?_isSome_iff.mp (foundLeft ▸ rfl)
  rcases Entries.exists_find? present with ⟨type, declared⟩
  rw [← atLeft, ← atRight]
  rcases wellFormed.of_find?_memberTypes declared with ⟨attr, found, _⟩ | ⟨nested, found, _⟩
  · exact attributes name attr found
  · exact blocks name nested found

/-- Two objects of a block are equal when their members are. -/
theorem object_ext (wellFormed : block.WellFormed) {xs ys : List (String × Value)}
    (left : block.Covers xs) (right : block.Covers ys)
    (attributes : ∀ name attr, Entries.find? name block.attributes = some attr →
      (Value.object xs).attributeNamed name = (Value.object ys).attributeNamed name)
    (blocks : ∀ name nested, Entries.find? name block.blocks = some nested →
      (Value.object xs).attributeNamed name = (Value.object ys).attributeNamed name) : xs = ys :=
  (wellFormed.paired left right attributes blocks).eq

/-- Every entry of an object of a block is the value of an attribute or of a nested block. -/
theorem forall_entries (wellFormed : block.WellFormed) {P : Value → Prop}
    {entries : List (String × Value)} (covers : block.Covers entries)
    (attributes : ∀ name attr, Entries.find? name block.attributes = some attr →
      P ((Value.object entries).attributeNamed name))
    (blocks : ∀ name nested, Entries.find? name block.blocks = some nested →
      P ((Value.object entries).attributeNamed name)) : ∀ entry ∈ entries, P entry.2 := by
  have paired := wellFormed.paired (R := fun _ value => P value) covers covers attributes blocks
  intro entry member
  rcases exists_mem_of_forall₂ paired.2 (List.mem_map_of_mem member) with ⟨_, _, holds⟩
  exact holds

/-- An object has the type of a block when its members have their types. -/
theorem hasType_object (wellFormed : block.WellFormed) {entries : List (String × Value)}
    (covers : block.Covers entries)
    (attributes : ∀ name attr, Entries.find? name block.attributes = some attr →
      Value.HasType attr.type ((Value.object entries).attributeNamed name))
    (blocks : ∀ name nested, Entries.find? name block.blocks = some nested →
      Value.HasType nested.valueType ((Value.object entries).attributeNamed name)) :
    Value.HasType block.valueType (.object entries) := by
  rw [valueType_eq]
  refine .object covers fun name type value declared found => ?_
  have here : (Value.object entries).attributeNamed name = value := by
    rw [Value.attributeNamed_object, found]
    rfl
  rcases wellFormed.of_find?_memberTypes declared with ⟨attr, found, rfl⟩ | ⟨nested, found, rfl⟩
  · exact here ▸ attributes name attr found
  · exact here ▸ blocks name nested found

private theorem hasType_attributeNamed {types : List (String × AttributeType)} {value : Value}
    (typed : Value.HasType (.object types) value) {type : AttributeType}
    (declared : Entries.find? name types = some type) :
    Value.HasType type (value.attributeNamed name) := by
  cases typed with
  | null => exact .null type
  | unknown => exact .null type
  | @object _ entries keys typed =>
      have present : name ∈ Entries.keys entries :=
        keys ▸ Entries.find?_isSome_iff.mp (declared ▸ rfl)
      rcases Entries.exists_find? present with ⟨value, found⟩
      rw [Value.attributeNamed_object, found]
      exact typed name type value declared found

/-- Under the name of an attribute a value of the block holds a value of the attribute. -/
theorem hasType_attribute (wellFormed : block.WellFormed) {value : Value}
    (typed : Value.HasType block.valueType value) {attr : Attribute}
    (found : Entries.find? name block.attributes = some attr) :
    Value.HasType attr.type (value.attributeNamed name) := by
  rw [valueType_eq] at typed
  exact hasType_attributeNamed typed (wellFormed.find?_memberTypes_attribute found)

/-- Under the name of a nested block a value of the block holds its occurrences. -/
theorem hasType_nested (wellFormed : block.WellFormed) {value : Value}
    (typed : Value.HasType block.valueType value) {nested : NestedBlock}
    (found : Entries.find? name block.blocks = some nested) :
    Value.HasType nested.valueType (value.attributeNamed name) := by
  rw [valueType_eq] at typed
  exact hasType_attributeNamed typed (wellFormed.find?_memberTypes_nested found)

end WellFormed
end Block

/-! ## Occurrences of a nested block -/

namespace NestedBlock

/-- The shapes that the occurrences of a nested block can have. -/
inductive Occurrences (nested : NestedBlock) : Value → Prop
  | single {value : Value} (mode : nested.mode = .single)
      (typed : Value.HasType nested.block.valueType value) : Occurrences nested value
  | null (repeated : nested.mode ≠ .single) : Occurrences nested .null
  | unknown (repeated : nested.mode ≠ .single) : Occurrences nested .unknown
  | list {elements : List Value} (mode : nested.mode = .list)
      (typed : ∀ element ∈ elements, Value.HasType nested.block.valueType element) :
      Occurrences nested (.list elements)
  | set {elements : List Value} (mode : nested.mode = .set)
      (typed : ∀ element ∈ elements, Value.HasType nested.block.valueType element) :
      Occurrences nested (.set elements)
  | map {entries : List (String × Value)} (mode : nested.mode = .map)
      (typed : ∀ entry ∈ entries, Value.HasType nested.block.valueType entry.2) :
      Occurrences nested (.map entries)

variable {nested : NestedBlock} {value : Value}

theorem occurrences_of_hasType (typed : Value.HasType nested.valueType value) :
    nested.Occurrences value := by
  unfold valueType at typed
  cases mode : nested.mode with
  | single =>
      rw [mode] at typed
      exact .single mode typed
  | list =>
      have repeated : nested.mode ≠ .single := by simp [mode]
      rw [mode] at typed
      cases typed with
      | null => exact .null repeated
      | unknown => exact .unknown repeated
      | list typed => exact .list mode typed
  | set =>
      have repeated : nested.mode ≠ .single := by simp [mode]
      rw [mode] at typed
      cases typed with
      | null => exact .null repeated
      | unknown => exact .unknown repeated
      | set typed => exact .set mode typed
  | map =>
      have repeated : nested.mode ≠ .single := by simp [mode]
      rw [mode] at typed
      cases typed with
      | null => exact .null repeated
      | unknown => exact .unknown repeated
      | map typed => exact .map mode typed

theorem hasType_of_occurrences (occurrences : nested.Occurrences value) :
    Value.HasType nested.valueType value := by
  unfold valueType
  cases occurrences with
  | single mode typed => exact mode ▸ typed
  | null => exact .null _
  | unknown => exact .unknown _
  | list mode typed => exact mode ▸ .list typed
  | set mode typed => exact mode ▸ .set typed
  | map mode typed => exact mode ▸ .map typed

end NestedBlock
end ProviderKit
