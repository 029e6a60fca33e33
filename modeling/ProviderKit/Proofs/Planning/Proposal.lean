import ProviderKit.Planning.Proposal
import ProviderKit.Proofs.Schema.WellFormed

/-!
# What a host proposes

The proposal for a configured object is an object of the block.  Each of its members comes
from the prior and the configured member of the same name and from nothing else, and a
proposal has the type of the block when the prior state and the configuration have it.
-/

namespace ProviderKit

def NestedBlock.propose (nested : NestedBlock) (before configured : Value) : Value :=
  match nested.mode, configured with
  | .single, configured => nested.block.propose before configured
  | _, .list items =>
    .list (items.zipIdx.map fun (item, i) => nested.block.propose (before.elementOrNull i) item)
  | _, .set items =>
    .set (items.zipIdx.map fun (item, i) => nested.block.propose (before.elementOrNull i) item)
  | _, .map entries =>
    .map (entries.map fun (key, item) => (key, nested.block.propose (before.entryOrNull key) item))
  | _, other => other

namespace Block

variable {block : Block} {prior config : Value} {name : String}

theorem proposeBlocks_cons (nested : NestedBlock) (rest : List (String × NestedBlock))
    (proposed : List (String × Value)) :
    proposeBlocks ((name, nested) :: rest) prior config proposed =
      proposeBlocks rest prior config (Entries.insert name
        (nested.propose (prior.attributeNamed name) (config.attributeNamed name)) proposed) := by
  cases nested
  rfl

theorem find?_proposeBlocks {blocks : List (String × NestedBlock)}
    (nodup : (Entries.keys blocks).Nodup) (proposed : List (String × Value)) :
    Entries.find? name (proposeBlocks blocks prior config proposed) =
      ((Entries.find? name blocks).map fun nested =>
        nested.propose (prior.attributeNamed name) (config.attributeNamed name)).or
          (Entries.find? name proposed) := by
  induction blocks generalizing proposed with
  | nil => rfl
  | cons entry rest inductionHypothesis =>
      rcases entry with ⟨key, nested⟩
      rcases List.nodup_cons.mp nodup with ⟨fresh, restNodup⟩
      rw [proposeBlocks_cons, inductionHypothesis restNodup]
      by_cases same : name = key
      · subst same
        rw [Entries.find?_cons_self, Entries.find?_eq_none_iff.mpr fresh, Entries.find?_insert_self]
        rfl
      · rw [Entries.find?_cons_of_ne (Ne.symm same), Entries.find?_insert_of_ne same]

/-- The names of a proposal are those of the type. -/
theorem keys_proposeBlocks {proposed : List (String × Value)}
    {types : List (String × AttributeType)} (same : Entries.keys proposed = Entries.keys types)
    (blocks : List (String × NestedBlock)) :
    Entries.keys (proposeBlocks blocks prior config proposed) =
      Entries.keys (addBlockTypes types blocks) := by
  induction blocks generalizing proposed types with
  | nil => exact same
  | cons entry rest inductionHypothesis =>
      rw [proposeBlocks_cons, addBlockTypes_cons]
      exact inductionHypothesis (Entries.keys_insert_congr _ _ _ same)

def proposedEntries (block : Block) (prior config : Value) : List (String × Value) :=
  proposeBlocks block.blocks prior config (block.attributes.map fun entry =>
    (entry.1, entry.2.propose (prior.attributeNamed entry.1) (config.attributeNamed entry.1)))

theorem propose_null (block : Block) (prior : Value) : block.propose prior .null = .null := by
  cases block
  rfl

theorem propose_unknown (block : Block) (prior : Value) :
    block.propose prior .unknown = .unknown := by
  cases block
  rfl

theorem propose_object (block : Block) (prior : Value) (entries : List (String × Value)) :
    block.propose prior (.object entries) =
      .object (block.proposedEntries prior (.object entries)) := by
  cases block
  rfl

/-- A proposal is null exactly when the configuration is. -/
theorem isNull_propose (block : Block) (prior config : Value) :
    (block.propose prior config).isNull = config.isNull := by
  cases block
  cases config <;> rfl

theorem covers_proposedEntries (block : Block) (prior config : Value) :
    block.Covers (block.proposedEntries prior config) := by
  refine keys_proposeBlocks ?_ block.blocks
  unfold attributeTypes
  rw [Entries.keys_mapValues]
  exact Entries.keys_map_with_key (fun name attr =>
    attr.propose (prior.attributeNamed name) (config.attributeNamed name)) block.attributes

namespace WellFormed

theorem attribute_proposed (wellFormed : block.WellFormed) {attr : Attribute}
    (found : Entries.find? name block.attributes = some attr) :
    (Value.object (block.proposedEntries prior config)).attributeNamed name =
      attr.propose (prior.attributeNamed name) (config.attributeNamed name) := by
  unfold proposedEntries
  rw [Value.attributeNamed_object, find?_proposeBlocks wellFormed.blocksNodup,
    wellFormed.find?_blocks found,
    Entries.find?_map_with_key fun name (attr : Attribute) =>
      attr.propose (prior.attributeNamed name) (config.attributeNamed name), found]
  rfl

theorem nested_proposed (wellFormed : block.WellFormed) {nested : NestedBlock}
    (found : Entries.find? name block.blocks = some nested) :
    (Value.object (block.proposedEntries prior config)).attributeNamed name =
      nested.propose (prior.attributeNamed name) (config.attributeNamed name) := by
  unfold proposedEntries
  rw [Value.attributeNamed_object, find?_proposeBlocks wellFormed.blocksNodup, found]
  rfl

end WellFormed
end Block

/-! ## The occurrences of a nested block -/

namespace NestedBlock

variable {nested : NestedBlock} {before : Value}

theorem propose_single (single : nested.mode = .single) (configured : Value) :
    nested.propose before configured = nested.block.propose before configured := by
  unfold propose
  rw [single]

theorem propose_list (repeated : nested.mode ≠ .single) (items : List Value) :
    nested.propose before (.list items) =
      .list (items.mapIdx fun i item => nested.block.propose (before.elementOrNull i) item) := by
  rw [List.mapIdx_eq_zipIdx_map]
  rcases nested with ⟨block, mode, _, _⟩
  cases mode with
  | single => exact absurd rfl repeated
  | _ => rfl

theorem propose_set (repeated : nested.mode ≠ .single) (items : List Value) :
    nested.propose before (.set items) =
      .set (items.mapIdx fun i item => nested.block.propose (before.elementOrNull i) item) := by
  rw [List.mapIdx_eq_zipIdx_map]
  rcases nested with ⟨block, mode, _, _⟩
  cases mode with
  | single => exact absurd rfl repeated
  | _ => rfl

theorem propose_map (repeated : nested.mode ≠ .single) (entries : List (String × Value)) :
    nested.propose before (.map entries) =
      .map (entries.map fun entry =>
        (entry.1, nested.block.propose (before.entryOrNull entry.1) entry.2)) := by
  rcases nested with ⟨block, mode, _, _⟩
  cases mode with
  | single => exact absurd rfl repeated
  | _ => rfl

theorem propose_null (nested : NestedBlock) : nested.propose before .null = .null := by
  rcases nested with ⟨block, mode, _, _⟩
  cases mode with
  | single => exact block.propose_null before
  | _ => rfl

theorem propose_unknown (nested : NestedBlock) : nested.propose before .unknown = .unknown := by
  rcases nested with ⟨block, mode, _, _⟩
  cases mode with
  | single => exact block.propose_unknown before
  | _ => rfl

end NestedBlock

/-! ## Types of proposals -/

theorem Attribute.hasType_propose {attr : Attribute} {prior configured : Value}
    (before : Value.HasType attr.type prior) (typed : Value.HasType attr.type configured) :
    Value.HasType attr.type (attr.propose prior configured) := by
  unfold propose
  split
  · exact before
  · exact typed

namespace Block

private theorem hasType_nested_propose {nested : NestedBlock} {before configured : Value}
    (inner : ∀ before configured, Value.HasType nested.block.valueType before →
      Value.HasType nested.block.valueType configured →
        Value.HasType nested.block.valueType (nested.block.propose before configured))
    (beforeTyped : Value.HasType nested.valueType before)
    (typed : Value.HasType nested.valueType configured) :
    Value.HasType nested.valueType (nested.propose before configured) := by
  cases NestedBlock.occurrences_of_hasType typed with
  | single mode typed =>
      rw [NestedBlock.propose_single mode]
      unfold NestedBlock.valueType at beforeTyped
      rw [mode] at beforeTyped
      exact NestedBlock.hasType_of_occurrences (.single mode (inner _ _ beforeTyped typed))
  | null =>
      rw [NestedBlock.propose_null]
      exact typed
  | unknown =>
      rw [NestedBlock.propose_unknown]
      exact typed
  | list mode each =>
      rw [NestedBlock.propose_list (by simp [mode])]
      unfold NestedBlock.valueType at beforeTyped
      rw [mode] at beforeTyped
      refine NestedBlock.hasType_of_occurrences (.list mode fun element member => ?_)
      rcases List.mem_mapIdx.mp member with ⟨i, bound, rfl⟩
      exact inner _ _ (beforeTyped.elementOrNull_list i) (each _ (List.getElem_mem bound))
  | set mode each =>
      rw [NestedBlock.propose_set (by simp [mode])]
      unfold NestedBlock.valueType at beforeTyped
      rw [mode] at beforeTyped
      refine NestedBlock.hasType_of_occurrences (.set mode fun element member => ?_)
      rcases List.mem_mapIdx.mp member with ⟨i, bound, rfl⟩
      exact inner _ _ (beforeTyped.elementOrNull_set i) (each _ (List.getElem_mem bound))
  | map mode each =>
      rw [NestedBlock.propose_map (by simp [mode])]
      unfold NestedBlock.valueType at beforeTyped
      rw [mode] at beforeTyped
      refine NestedBlock.hasType_of_occurrences (.map mode (List.forall_mem_map.mpr ?_))
      exact fun entry member => inner _ _ (beforeTyped.entryOrNull entry.1) (each entry member)

/-- A proposal has the type of its block. -/
theorem WellFormed.hasType_propose {block : Block} (wellFormed : block.WellFormed)
    {prior config : Value} (before : Value.HasType block.valueType prior)
    (typed : Value.HasType block.valueType config) :
    Value.HasType block.valueType (block.propose prior config) := by
  induction block, wellFormed using WellFormed.induct generalizing prior config with
  | step block wellFormed inductionHypothesis =>
      rcases cases_of_hasType typed with rfl | rfl | ⟨entries, rfl, _⟩
      · rw [propose_null]
        exact typed
      · rw [propose_unknown]
        exact typed
      · rw [propose_object]
        refine wellFormed.hasType_object (covers_proposedEntries ..) ?_ ?_
        · intro name attr found
          rw [wellFormed.attribute_proposed found]
          exact Attribute.hasType_propose (wellFormed.hasType_attribute before found)
            (wellFormed.hasType_attribute typed found)
        · intro name nested found
          rw [wellFormed.nested_proposed found]
          refine hasType_nested_propose (fun _ _ => ?_) (wellFormed.hasType_nested before found)
            (wellFormed.hasType_nested typed found)
          exact inductionHypothesis _ (Entries.mem_of_find? found)

end Block
end ProviderKit
