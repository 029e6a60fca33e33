import ProviderKit.Proofs.Schema.AttributePaths
import ProviderKit.Proofs.Schema.WellFormed

/-!
# Paths through blocks and paths through types

A path can be followed through the nested blocks of a schema, and it can be followed through the
type of the values, where a block looks like an attribute of an object type.  The search for an
attribute goes through the blocks and stops at the first name of an attribute, wherever the path
leads from there.  It stops at the right place: up to there the path leads to the type of the
attribute, and from there on it leads through this type.  What is left are the paths that end among
the blocks, at the block itself, at a nested block, or at one of its occurrences.

The search does not ask whether an index or a key suits the way in which a block repeats.  A path
that can be followed through the type has the one that does.
-/

namespace ProviderKit

namespace AttributeType

/-- The type of the part that a step leads to.  A name leads into an object, a key into a map, and
an index into a list or a set. -/
def part? : AttributeType → PathStep → Option AttributeType
  | object attributes, .name name => Entries.find? name attributes
  | map element, .key _ => some element
  | list element, .index _ => some element
  | set element, .index _ => some element
  | _, _ => none

/-- The type at the end of a path. -/
def partAt? : Path → AttributeType → Option AttributeType
  | [], type => some type
  | step :: rest, type => (type.part? step).bind (partAt? rest)

end AttributeType

/-- The steps that choose one occurrence of a block.  There is nothing to choose where it occurs
once. -/
inductive NestingMode.Chooses : NestingMode → Path → Prop
  | single : Chooses .single []
  | list (index : Int) : Chooses .list [.index index]
  | set (index : Int) : Chooses .set [.index index]
  | map (key : String) : Chooses .map [.key key]

namespace Block

/-- The path leads through nested blocks to an occurrence of a block: it has the name of each block
on the way, and behind the name the choice of an occurrence. -/
inductive Reaches : Block → Path → Block → Prop
  | here (block : Block) : Reaches block [] block
  | nested {block inner : Block} {name : String} {nested : NestedBlock} {chosen rest : Path}
      (found : Entries.find? name block.blocks = some nested)
      (chooses : nested.mode.Chooses chosen) (further : Reaches nested.block rest inner) :
      Reaches block (.name name :: (chosen ++ rest)) inner

/-- The path ends at a nested block, which stands for all of its occurrences, or at one of them. -/
inductive Addresses (block : Block) : Path → Prop
  | occurrences {place : Path} {inner : Block} {name : String} {nested : NestedBlock}
      (reaches : block.Reaches place inner)
      (found : Entries.find? name inner.blocks = some nested) : Addresses block (place.atName name)
  | occurrence {place : Path} {inner : Block} {name : String} {nested : NestedBlock}
      {chosen : Path} (reaches : block.Reaches place inner)
      (found : Entries.find? name inner.blocks = some nested)
      (chooses : nested.mode.Chooses chosen) : Addresses block (place.atName name ++ chosen)

end Block

/-! ## One name -/

namespace NestedBlock

variable {nested : NestedBlock} {chosen rest : Path}

theorem partAt?_valueType (chooses : nested.mode.Chooses chosen) (rest : Path) :
    nested.valueType.partAt? (chosen ++ rest) = nested.block.valueType.partAt? rest := by
  unfold valueType
  cases mode : nested.mode <;> rw [mode] at chooses <;> cases chooses <;> rfl

/-- A step into a block that repeats chooses an occurrence. -/
theorem chooses_of_part? (repeated : nested.mode ≠ .single) {step : PathStep}
    {type : AttributeType} (found : nested.valueType.part? step = some type) :
    nested.mode.Chooses [step] := by
  unfold valueType at found
  cases mode : nested.mode <;> rw [mode] at found
  case single => exact absurd mode repeated
  all_goals
    cases step <;> cases found
    constructor

end NestedBlock

namespace Block

variable {block inner : Block} {name : String} {path place front rest chosen : Path}
  {nested : NestedBlock} {attr : Attribute} {type : AttributeType}

theorem WellFormed.partAt?_attribute (wellFormed : block.WellFormed)
    (found : Entries.find? name block.attributes = some attr) (rest : Path) :
    block.valueType.partAt? (.name name :: rest) = attr.type.partAt? rest := by
  rw [valueType_eq, AttributeType.partAt?, AttributeType.part?,
    wellFormed.find?_memberTypes_attribute found, Option.bind_some]

theorem WellFormed.partAt?_nested (wellFormed : block.WellFormed)
    (found : Entries.find? name block.blocks = some nested) (rest : Path) :
    block.valueType.partAt? (.name name :: rest) = nested.valueType.partAt? rest := by
  rw [valueType_eq, AttributeType.partAt?, AttributeType.part?,
    wellFormed.find?_memberTypes_nested found, Option.bind_some]

/-- A name that stands for nothing in a block leads nowhere in its values. -/
theorem WellFormed.partAt?_unnamed (wellFormed : block.WellFormed)
    (noAttribute : Entries.find? name block.attributes = none)
    (noBlock : Entries.find? name block.blocks = none) (rest : Path) :
    block.valueType.partAt? (.name name :: rest) = none := by
  rw [valueType_eq, AttributeType.partAt?, AttributeType.part?, memberTypes, attributeTypes,
    find?_addBlockTypes wellFormed.blocksNodup, noBlock, Entries.find?_mapValues, noAttribute]
  rfl

/-- Behind the choice of an occurrence the search goes on inside the block. -/
theorem attributeAt?_nested (absent : Entries.find? name block.attributes = none)
    (found : Entries.find? name block.blocks = some nested)
    (chooses : nested.mode.Chooses chosen) (rest : Path) :
    block.attributeAt? (.name name :: (chosen ++ rest)) = nested.block.attributeAt? rest := by
  cases mode : nested.mode <;> rw [mode] at chooses <;> cases chooses <;>
    simp [attributeAt?, absent, found, mode]

/-! ## Occurrences of blocks -/

namespace Reaches

/-- An occurrence of a block has the type of the values of the block. -/
theorem partAt?_valueType (reaches : block.Reaches place inner) (wellFormed : block.WellFormed)
    (rest : Path) :
    block.valueType.partAt? (place ++ rest) = inner.valueType.partAt? rest := by
  induction reaches with
  | here => rfl
  | nested found chooses _ inductionHypothesis =>
      rw [List.cons_append, List.append_assoc, wellFormed.partAt?_nested found,
        NestedBlock.partAt?_valueType chooses]
      exact inductionHypothesis (wellFormed.nested found)

theorem attributeAt?_append (reaches : block.Reaches place inner) (wellFormed : block.WellFormed)
    (rest : Path) : block.attributeAt? (place ++ rest) = inner.attributeAt? rest := by
  induction reaches with
  | here => rfl
  | nested found chooses _ inductionHypothesis =>
      rw [List.cons_append, List.append_assoc,
        attributeAt?_nested (wellFormed.find?_attributes found) found chooses]
      exact inductionHypothesis (wellFormed.nested found)

theorem wellFormed (reaches : block.Reaches place inner) (wellFormed : block.WellFormed) :
    inner.WellFormed := by
  induction reaches with
  | here => exact wellFormed
  | nested found _ _ inductionHypothesis => exact inductionHypothesis (wellFormed.nested found)

end Reaches

/-- No attribute is found for a path that ends among the blocks. -/
theorem Addresses.attributeAt?_eq_none (addresses : block.Addresses path)
    (wellFormed : block.WellFormed) : block.attributeAt? path = none := by
  cases addresses with
  | @occurrences place inner name nested reaches found =>
      have absent := (reaches.wellFormed wellFormed).find?_attributes found
      rw [Path.atName, reaches.attributeAt?_append wellFormed, attributeAt?, absent, found]
      by_cases single : nested.mode = .single <;> simp [single, attributeAt?]
  | @occurrence place inner name nested chosen reaches found chooses =>
      have absent := (reaches.wellFormed wellFormed).find?_attributes found
      rw [Path.atName, List.append_assoc, reaches.attributeAt?_append wellFormed,
        List.singleton_append, ← List.append_nil chosen, attributeAt?_nested absent found chooses]
      rfl

/-- What ends among the blocks of a nested block ends among those of the block. -/
theorem Addresses.within (found : Entries.find? name block.blocks = some nested)
    (chooses : nested.mode.Chooses chosen) (inside : rest = [] ∨ nested.block.Addresses rest) :
    block.Addresses (.name name :: (chosen ++ rest)) := by
  rcases inside with rfl | ⟨reaches, declared⟩ | ⟨reaches, declared, last⟩
  · rw [List.append_nil]
    exact .occurrence (.here block) found chooses
  · have further := Addresses.occurrences (.nested found chooses reaches) declared
    simpa [Path.atName] using further
  · have further := Addresses.occurrence (.nested found chooses reaches) declared last
    simpa [Path.atName] using further

/-! ## The search for an attribute -/

theorem Names.attributeAt?_append (names : block.Names front attr) (rest : Path) :
    block.attributeAt? (front ++ rest) = some attr := by
  induction names with
  | own found => simp [Block.attributeAt?, found]
  | single absent found mode _ inductionHypothesis =>
      simpa [Block.attributeAt?, absent, found, mode] using inductionHypothesis
  | @repeated block name nested step rest attr absent found mode chooses _ inductionHypothesis =>
      cases step with
      | name word => exact absurd rfl (chooses word)
      | index | key => simpa [Block.attributeAt?, absent, found, mode] using inductionHypothesis

/-- The search stops where a first part of the path names an attribute. -/
theorem attributeAt?_eq_some_iff :
    block.attributeAt? path = some attr ↔
      ∃ front rest, path = front ++ rest ∧ block.Names front attr := by
  constructor
  · intro found
    fun_induction Block.attributeAt? path block with
    | case1 name rest block other named =>
        cases found
        exact ⟨[.name name], rest, rfl, .own named⟩
    | case3 name rest block unnamed nested blockNamed single inductionHypothesis =>
        rcases inductionHypothesis found with ⟨front, back, rfl, names⟩
        exact ⟨.name name :: front, back, rfl, .single unnamed blockNamed single names⟩
    | case4 name block unnamed nested blockNamed repeated index inner inductionHypothesis
    | case5 name block unnamed nested blockNamed repeated key inner inductionHypothesis =>
        rcases inductionHypothesis found with ⟨front, back, rfl, names⟩
        exact ⟨_ :: _ :: front, back, rfl, .repeated unnamed blockNamed repeated (by simp) names⟩
    | _ => cases found
  · rintro ⟨front, rest, rfl, names⟩
    exact names.attributeAt?_append rest

/-- Where a path that names an attribute can be followed, it leads to the type of the attribute and
from there through it. -/
theorem Names.partAt? (names : block.Names front attr) (wellFormed : block.WellFormed)
    (followed : block.valueType.partAt? (front ++ rest) = some type) :
    block.valueType.partAt? front = some attr.type ∧ attr.type.partAt? rest = some type := by
  induction names with
  | own found =>
      rw [List.singleton_append, wellFormed.partAt?_attribute found] at followed
      exact ⟨wellFormed.partAt?_attribute found [], followed⟩
  | @single block name nested front attr absent found mode _ inductionHypothesis =>
      have once : nested.valueType = nested.block.valueType := by
        rw [NestedBlock.valueType, mode]
        rfl
      rw [List.cons_append, wellFormed.partAt?_nested found, once] at followed
      rw [wellFormed.partAt?_nested found, once]
      exact inductionHypothesis (wellFormed.nested found) followed
  | @repeated block name nested step front attr absent found repeated _ _ inductionHypothesis =>
      rw [List.cons_append, List.cons_append, wellFormed.partAt?_nested found] at followed
      rcases Option.bind_eq_some_iff.mp followed with ⟨_, first, _⟩
      have chooses := NestedBlock.chooses_of_part? repeated first
      rw [← List.singleton_append, NestedBlock.partAt?_valueType chooses] at followed
      rw [wellFormed.partAt?_nested found, ← List.singleton_append (l := front),
        NestedBlock.partAt?_valueType chooses]
      exact inductionHypothesis (wellFormed.nested found) followed

/-- A path that can be followed and finds no attribute ends among the blocks. -/
theorem addresses_of_attributeAt?_eq_none (missing : block.attributeAt? path = none)
    (wellFormed : block.WellFormed) (followed : block.valueType.partAt? path = some type) :
    path = [] ∨ block.Addresses path := by
  fun_induction Block.attributeAt? path block with
  | case1 => cases missing
  | case2 name rest block unnamed blockUnnamed =>
      rw [wellFormed.partAt?_unnamed unnamed blockUnnamed] at followed
      cases followed
  | case3 name rest block unnamed nested blockNamed single inductionHypothesis =>
      have chooses : nested.mode.Chooses [] := single ▸ .single
      rw [wellFormed.partAt?_nested blockNamed, ← List.nil_append rest,
        NestedBlock.partAt?_valueType chooses] at followed
      exact .inr (.within blockNamed chooses
        (inductionHypothesis missing (wellFormed.nested blockNamed) followed))
  | case4 name block unnamed nested blockNamed repeated index inner inductionHypothesis
  | case5 name block unnamed nested blockNamed repeated key inner inductionHypothesis =>
      rw [wellFormed.partAt?_nested blockNamed] at followed
      rcases Option.bind_eq_some_iff.mp followed with ⟨_, first, _⟩
      have chooses := NestedBlock.chooses_of_part? repeated first
      rw [← List.singleton_append, NestedBlock.partAt?_valueType chooses] at followed
      exact .inr (.within blockNamed chooses
        (inductionHypothesis missing (wellFormed.nested blockNamed) followed))
  | case6 name rest block unnamed nested blockNamed repeated notIndex notKey =>
      rw [wellFormed.partAt?_nested blockNamed] at followed
      cases rest with
      | nil => exact .inr (.occurrences (.here block) blockNamed)
      | cons step rest =>
          -- The type only lets an index or a key follow, for which the search would have gone on.
          rcases Option.bind_eq_some_iff.mp followed with ⟨_, first, _⟩
          have chooses := NestedBlock.chooses_of_part? repeated first
          cases step with
          | name word => generalize nested.mode = mode at chooses; cases chooses
          | index index => exact (notIndex index rest rfl).elim
          | key key => exact (notKey key rest rfl).elim
  | case7 path block unnamed =>
      rw [valueType_eq] at followed
      rcases path with _ | ⟨_ | _ | _, _⟩
      · exact .inl rfl
      · exact (unnamed _ _ rfl).elim
      · cases followed
      · cases followed

end Block

namespace Schema

variable {schema : Schema} {path : Path} {type : AttributeType}

/-- For a path that can be followed through the type of the values, an attribute is found exactly
when a first part of the path names it.  This part then leads to the type of the attribute and the
rest leads through it.  No attribute is found exactly when the path is empty or ends at a nested
block or at one of its occurrences. -/
theorem attribute_paths_agree_with_types (wellFormed : schema.block.WellFormed)
    (followed : schema.valueType.partAt? path = some type) :
    (∀ attr, schema.attributeAt? path = some attr ↔
      ∃ front rest, path = front ++ rest ∧ schema.block.Names front attr) ∧
    (∀ attr front rest, path = front ++ rest → schema.block.Names front attr →
      schema.valueType.partAt? front = some attr.type ∧ attr.type.partAt? rest = some type) ∧
    (schema.attributeAt? path = none ↔ path = [] ∨ schema.block.Addresses path) := by
  refine ⟨fun attr => Block.attributeAt?_eq_some_iff, ?_, fun missing => ?_, ?_⟩
  · rintro attr front rest rfl names
    exact names.partAt? wellFormed followed
  · exact Block.addresses_of_attributeAt?_eq_none missing wellFormed followed
  · rintro (rfl | addresses)
    · rfl
    · exact addresses.attributeAt?_eq_none wellFormed

/-- A balancer that listens at one place by a list of rules, each with labels. -/
def balancerSchema : Schema :=
  let labels : Attribute := { type := .map .string, flags := {} }
  let listen : Block := ⟨[], [("rule", .ofMode .list ⟨[("labels", labels)], [], none⟩)], none⟩
  ⟨0, ⟨[], [("listen", .ofMode .single listen)], none⟩⟩

private theorem wellFormed_of_nested {name : String} {nested : NestedBlock}
    (inner : nested.block.WellFormed) :
    (⟨[], [(name, nested)], none⟩ : Block).WellFormed :=
  .intro .nil (List.pairwise_singleton _ _) (fun _ member => absurd member List.not_mem_nil)
    (fun _ member => absurd member List.not_mem_nil) (List.forall_mem_singleton.mpr inner)

theorem balancerSchema_wellFormed : balancerSchema.block.WellFormed := by
  refine wellFormed_of_nested (wellFormed_of_nested ?_)
  exact .of_attributes (List.pairwise_singleton _ _) (List.forall_mem_singleton.mpr (.map .string))

/-- The labels of a rule are found through one of them, and nothing is found for the rule. -/
theorem balancer_paths_agree_with_types :
    let rule : Path := [.name "listen", .name "rule", .index 3]
    let label : Path := rule.atName "labels" ++ [.key "zone"]
    balancerSchema.block.WellFormed ∧
      balancerSchema.valueType.partAt? label = some .string ∧
      (∃ attr, balancerSchema.attributeAt? label = some attr ∧
        balancerSchema.valueType.partAt? (rule.atName "labels") = some attr.type ∧
        attr.type.partAt? [.key "zone"] = some .string) ∧
      balancerSchema.valueType.partAt? rule = some (.object [("labels", .map .string)]) ∧
      balancerSchema.attributeAt? rule = none := by
  intro rule label
  have wellFormed := balancerSchema_wellFormed
  have labelFollowed : balancerSchema.valueType.partAt? label = some .string := rfl
  have ruleFollowed :
      balancerSchema.valueType.partAt? rule = some (.object [("labels", .map .string)]) := rfl
  rcases attribute_paths_agree_with_types wellFormed labelFollowed with ⟨found, leads, -⟩
  rcases attribute_paths_agree_with_types wellFormed ruleFollowed with ⟨-, -, missing⟩
  have names : balancerSchema.block.Names (rule.atName "labels")
      { type := .map .string, flags := {} } := endsAt_iff.mp ⟨rfl, rfl⟩
  have listen : balancerSchema.block.Reaches [.name "listen"] _ :=
    @Block.Reaches.nested _ _ "listen" _ [] [] rfl .single (.here _)
  exact ⟨wellFormed, labelFollowed, ⟨_, (found _).mpr ⟨_, _, rfl, names⟩, leads _ _ _ rfl names⟩,
    ruleFollowed, missing.mpr (.inr (.occurrence listen rfl (.list 3)))⟩

end Schema
end ProviderKit
