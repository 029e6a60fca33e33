import ProviderKit.Proofs.Planning.Completion
import ProviderKit.Proofs.Planning.Proposal
import ProviderKit.Proofs.Value.KeyOrder
import ProviderKit.Proofs.Value.Refinement

/-!
# States that a plan leaves alone

A state is stable under a configuration when proposing it and filling in the defaults gives
it back: the next plan finds nothing to do.  Stability is a matter of the parts of a state.  A
state is stable under a configured object when each attribute is, and each occurrence of a
nested block under the configuration of its counterpart.
-/

namespace ProviderKit

/-- An attribute as it is proposed from a state and completed with its default. -/
def Attribute.replanned (attr : Attribute) (configured state : Value) : Value :=
  attr.filled .defaults configured (attr.propose state configured)

/-- A block as it is proposed from a state and completed with the defaults. -/
def Block.replanned (block : Block) (config state : Value) : Value :=
  block.fill .defaults config (block.propose state config)

/-- The occurrences of a block as they are proposed from a state and completed with the
defaults. -/
def NestedBlock.replanned (nested : NestedBlock) (configured state : Value) : Value :=
  nested.fill .defaults configured (nested.propose state configured)

/-- Planning again does not change the state of the attribute. -/
def Attribute.Stable (attr : Attribute) (configured state : Value) : Prop :=
  attr.replanned configured state = state

/-- Planning again does not change the state of the block. -/
def Block.Stable (block : Block) (config state : Value) : Prop :=
  block.replanned config state = state

/-- Planning again does not change the occurrences of the block. -/
def NestedBlock.Stable (nested : NestedBlock) (configured state : Value) : Prop :=
  nested.replanned configured state = state

/-! ## Lists that are completed in step -/

namespace Value

variable {f : Value → Value → Value} {items states : List Value}

/-- A list of counterparts is the result of a computation exactly when each counterpart is. -/
theorem mapIdx_counterpart_eq_iff :
    (items.mapIdx fun i item => f item (states[i]?.getD null)) = states ↔
      List.Forall₂ (fun item state => f item state = state) items states := by
  induction items generalizing states with
  | nil => simp [eq_comm]
  | cons item rest inductionHypothesis =>
      cases states with
      | nil => simp
      | cons state others =>
          rw [List.mapIdx_cons, List.forall₂_cons, ← inductionHypothesis]
          simp

/-- Two computations over the counterparts of a list are one. -/
theorem mapIdx_mapIdx_counterpart {g : Value → Value → Value} {before : Nat → Value} :
    ((items.mapIdx fun i item => f (before i) item).mapIdx fun i proposed =>
      g (items[i]?.getD null) proposed) =
      items.mapIdx fun i item => g item (f (before i) item) := by
  refine List.ext_getElem? fun i => ?_
  rw [List.getElem?_mapIdx, List.getElem?_mapIdx, List.getElem?_mapIdx]
  cases found : items[i]? with
  | none => rfl
  | some item => rfl

/-- A relation between the items and what is computed from each of them. -/
theorem forall₂_mapIdx {R : Value → Value → Prop} {g : Nat → Value → Value}
    (each : ∀ item ∈ items, ∀ i, R item (g i item)) : List.Forall₂ R items (items.mapIdx g) := by
  refine List.forall₂_iff_get.mpr ⟨List.length_mapIdx.symm, fun i bound bound' => ?_⟩
  simp only [List.get_eq_getElem, List.getElem_mapIdx]
  exact each _ (List.getElem_mem bound) i

/-- A relation that a computation over the counterparts keeps. -/
theorem forall₂_mapIdx_counterpart {R : Value → Value → Prop}
    (related : List.Forall₂ R items states)
    (keeps : ∀ item ∈ items, ∀ state, R item state → R item (f item state)) :
    List.Forall₂ R items (states.mapIdx fun i state => f (items[i]?.getD null) state) := by
  induction related with
  | nil => exact .nil
  | cons first _ inductionHypothesis =>
      rcases List.forall_mem_cons.mp keeps with ⟨here, further⟩
      rw [List.mapIdx_cons]
      exact .cons (here _ first) (inductionHypothesis further)

end Value

/-! ## Planning again, part by part -/

namespace NestedBlock

variable {nested : NestedBlock} {state : Value}

theorem replanned_single (single : nested.mode = .single) (configured : Value) :
    nested.replanned configured state = nested.block.replanned configured state := by
  unfold replanned Block.replanned
  rw [fill_single single, propose_single single]

theorem replanned_null (nested : NestedBlock) : nested.replanned .null state = .null := by
  unfold replanned
  rw [propose_null, fill_null]

theorem replanned_unknown (nested : NestedBlock) : nested.replanned .unknown state = .unknown := by
  unfold replanned
  rw [propose_unknown, fill_unknown]

theorem replanned_list (repeated : nested.mode ≠ .single) (items : List Value) :
    nested.replanned (.list items) state =
      .list (items.mapIdx fun i item => nested.block.replanned item (state.elementOrNull i)) := by
  unfold replanned
  rw [propose_list repeated, fill_list repeated]
  exact congrArg Value.list Value.mapIdx_mapIdx_counterpart

theorem replanned_set (repeated : nested.mode ≠ .single) (items : List Value) :
    nested.replanned (.set items) state =
      .set (items.mapIdx fun i item => nested.block.replanned item (state.elementOrNull i)) := by
  unfold replanned
  rw [propose_set repeated, fill_set repeated]
  exact congrArg Value.set Value.mapIdx_mapIdx_counterpart

/-- In a map an entry is completed by the configuration under its own key, so no key may
occur twice. -/
theorem replanned_map (repeated : nested.mode ≠ .single) {items : List (String × Value)}
    (nodup : (Entries.keys items).Nodup) :
    nested.replanned (.map items) state =
      .map (items.map fun entry =>
        (entry.1, nested.block.replanned entry.2 (state.entryOrNull entry.1))) := by
  unfold replanned
  rw [propose_map repeated, fill_map repeated, List.map_map]
  refine congrArg Value.map (List.map_congr_left fun entry member => ?_)
  have configured : (Value.map items).entryOrNull entry.1 = entry.2 := by
    rw [Value.entryOrNull, Entries.find?_of_mem nodup member]
    rfl
  simp only [Function.comp_apply, configured]
  rfl

theorem stable_single_iff (single : nested.mode = .single) (configured : Value) :
    nested.Stable configured state ↔ nested.block.Stable configured state := by
  unfold Stable Block.Stable
  rw [replanned_single single]

theorem stable_null_iff (nested : NestedBlock) : nested.Stable .null state ↔ state = .null := by
  unfold Stable
  rw [replanned_null]
  exact eq_comm

theorem stable_unknown_iff (nested : NestedBlock) :
    nested.Stable .unknown state ↔ state = .unknown := by
  unfold Stable
  rw [replanned_unknown]
  exact eq_comm

theorem stable_list_iff (repeated : nested.mode ≠ .single) (items : List Value) :
    nested.Stable (.list items) state ↔
      ∃ states, state = .list states ∧ List.Forall₂ nested.block.Stable items states := by
  unfold Stable
  rw [replanned_list repeated]
  constructor
  · intro stable
    cases state with
    | list states =>
        exact ⟨states, rfl, Value.mapIdx_counterpart_eq_iff.mp (Value.list.inj stable)⟩
    | _ => cases stable
  · rintro ⟨states, rfl, stable⟩
    exact congrArg Value.list (Value.mapIdx_counterpart_eq_iff.mpr stable)

theorem stable_set_iff (repeated : nested.mode ≠ .single) (items : List Value) :
    nested.Stable (.set items) state ↔
      ∃ states, state = .set states ∧ List.Forall₂ nested.block.Stable items states := by
  unfold Stable
  rw [replanned_set repeated]
  constructor
  · intro stable
    cases state with
    | set states =>
        exact ⟨states, rfl, Value.mapIdx_counterpart_eq_iff.mp (Value.set.inj stable)⟩
    | _ => cases stable
  · rintro ⟨states, rfl, stable⟩
    exact congrArg Value.set (Value.mapIdx_counterpart_eq_iff.mpr stable)

theorem stable_map_iff (repeated : nested.mode ≠ .single) {items : List (String × Value)}
    (nodup : (Entries.keys items).Nodup) :
    nested.Stable (.map items) state ↔
      ∃ states, state = .map states ∧ Entries.Paired nested.block.Stable items states := by
  have found : ∀ (states : List (String × Value)) (key : String) (item result : Value),
      Entries.find? key items = some item → Entries.find? key states = some result →
        Entries.find? key (items.map fun entry => (entry.1,
          nested.block.replanned entry.2 ((Value.map states).entryOrNull entry.1))) =
            some (nested.block.replanned item result) := by
    intro states key item result isItem isState
    rw [Entries.find?_map_with_key fun key item =>
      nested.block.replanned item ((Value.map states).entryOrNull key), isItem,
      Value.entryOrNull, isState]
    rfl
  have keys : ∀ states : List (String × Value), Entries.keys (items.map fun entry => (entry.1,
      nested.block.replanned entry.2 ((Value.map states).entryOrNull entry.1))) =
        Entries.keys items := fun states =>
    Entries.keys_map_with_key (fun key item =>
      nested.block.replanned item ((Value.map states).entryOrNull key)) items
  unfold Stable
  rw [replanned_map repeated nodup]
  constructor
  · intro stable
    cases state with
    | map states =>
        have same := Value.map.inj stable
        refine ⟨states, rfl, Entries.paired_of_find? ?_ nodup ?_⟩
        · exact (keys states).symm.trans (congrArg Entries.keys same)
        · intro key item result isItem isState
          have computed := found states key item result isItem isState
          rw [same, isState] at computed
          exact (Option.some.inj computed).symm
    | _ => cases stable
  · rintro ⟨states, rfl, paired⟩
    refine congrArg Value.map (Entries.Paired.eq (Entries.paired_of_find? ?_ ?_ ?_))
    · exact (keys states).trans paired.1
    · rwa [keys states]
    · intro key left right isLeft isState
      obtain ⟨item, isItem⟩ : ∃ item, Entries.find? key items = some item := by
        apply Entries.exists_find?
        rw [paired.1]
        exact Entries.find?_isSome_iff.mp (isState ▸ rfl)
      rw [found states key item right isItem isState] at isLeft
      have related := paired.find? key
      rw [isItem, isState] at related
      cases related with
      | some stable => exact (Option.some.inj isLeft).symm.trans stable

end NestedBlock

namespace Block

variable {block : Block} {state : Value} {name : String}

theorem replanned_null (block : Block) : block.replanned .null state = .null := by
  unfold replanned
  rw [propose_null, fill_null]

theorem replanned_unknown (block : Block) : block.replanned .unknown state = .unknown := by
  unfold replanned
  rw [propose_unknown, fill_unknown]

theorem replanned_object (block : Block) (config : List (String × Value)) (state : Value) :
    block.replanned (.object config) state =
      .object (block.filledEntries .defaults (.object config)
        (block.proposedEntries state (.object config))) := by
  unfold replanned
  rw [propose_object, fill_object]

namespace WellFormed

theorem attribute_replanned (wellFormed : block.WellFormed) (config : List (String × Value))
    (state : Value) {attr : Attribute} (found : Entries.find? name block.attributes = some attr) :
    (block.replanned (.object config) state).attributeNamed name =
      attr.replanned ((Value.object config).attributeNamed name) (state.attributeNamed name) := by
  have proposed := block.covers_proposedEntries state (.object config)
  rw [replanned_object, wellFormed.attribute_filled proposed found,
    wellFormed.attribute_proposed found]
  rfl

theorem nested_replanned (wellFormed : block.WellFormed) (config : List (String × Value))
    (state : Value) {nested : NestedBlock} (found : Entries.find? name block.blocks = some nested) :
    (block.replanned (.object config) state).attributeNamed name =
      nested.replanned ((Value.object config).attributeNamed name) (state.attributeNamed name) := by
  have proposed := block.covers_proposedEntries state (.object config)
  rw [replanned_object, wellFormed.nested_filled proposed found, wellFormed.nested_proposed found]
  rfl

/-- A state is stable under a configured object when it is an object whose members are
stable under the configured members. -/
theorem stable_object_iff (wellFormed : block.WellFormed) (config : List (String × Value)) :
    block.Stable (.object config) state ↔
      ∃ entries, state = .object entries ∧ block.Covers entries ∧
      (∀ name attr, Entries.find? name block.attributes = some attr →
        attr.Stable ((Value.object config).attributeNamed name)
          ((Value.object entries).attributeNamed name)) ∧
      ∀ name nested, Entries.find? name block.blocks = some nested →
        nested.Stable ((Value.object config).attributeNamed name)
          ((Value.object entries).attributeNamed name) := by
  have replanned := block.replanned_object config state
  have covers : block.Covers (block.filledEntries .defaults (.object config)
      (block.proposedEntries state (.object config))) :=
    wellFormed.covers_filledEntries (block.covers_proposedEntries state (.object config))
  constructor
  · intro stable
    have object := stable.symm.trans replanned
    refine ⟨_, object, covers, ?_, ?_⟩
    · intro name attr found
      rw [← object]
      exact (wellFormed.attribute_replanned config state found).symm.trans
        (congrArg (Value.attributeNamed name) stable)
    · intro name nested found
      rw [← object]
      exact (wellFormed.nested_replanned config state found).symm.trans
        (congrArg (Value.attributeNamed name) stable)
  · rintro ⟨entries, rfl, entriesCover, attributes, blocks⟩
    refine replanned.trans (congrArg Value.object ?_)
    refine wellFormed.object_ext covers entriesCover ?_ ?_
    · intro name attr found
      rw [← replanned, wellFormed.attribute_replanned config _ found]
      exact attributes name attr found
    · intro name nested found
      rw [← replanned, wellFormed.nested_replanned config _ found]
      exact blocks name nested found

end WellFormed
end Block
end ProviderKit
