import ProviderKit.Proofs.Planning.Stability

/-!
# The sets of a proposal

A proposal is sent before it is planned, and what is sent must not repeat an element of a
set.  From a stable state it does not: the proposal of an element determines the element,
so two elements with equal proposals would be equal themselves.
-/

namespace ProviderKit

/-- A value of a type that a known configuration can have: its maps and objects are in key
order and nothing in it is unknown. -/
structure Value.Configuration (type : AttributeType) (value : Value) : Prop where
  typed : Value.HasType type value
  ordered : value.KeyOrdered
  known : value.isFullyKnown = true

/-- The shapes that the occurrences of a nested block can have in a known configuration. -/
inductive NestedBlock.Configured (nested : NestedBlock) : Value → Prop
  | single {value : Value} (mode : nested.mode = .single)
      (known : Value.Configuration nested.block.valueType value) : Configured nested value
  | null (repeated : nested.mode ≠ .single) : Configured nested .null
  | list {items : List Value} (mode : nested.mode = .list)
      (known : ∀ item ∈ items, Value.Configuration nested.block.valueType item) :
      Configured nested (.list items)
  | set {items : List Value} (mode : nested.mode = .set)
      (known : ∀ item ∈ items, Value.Configuration nested.block.valueType item) :
      Configured nested (.set items)
  | map {items : List (String × Value)} (mode : nested.mode = .map)
      (nodup : (Entries.keys items).Nodup)
      (known : ∀ entry ∈ items, Value.Configuration nested.block.valueType entry.2) :
      Configured nested (.map items)

theorem Value.Configuration.configured {nested : NestedBlock} {value : Value}
    (known : Configuration nested.valueType value) : nested.Configured value := by
  rcases known with ⟨typed, ordered, known⟩
  cases NestedBlock.occurrences_of_hasType typed with
  | single mode typed => exact .single mode ⟨typed, ordered, known⟩
  | null repeated => exact .null repeated
  | unknown => cases known
  | list mode each =>
      have known := isFullyKnown_list_iff.mp known
      cases ordered with
      | list ordered =>
          exact .list mode fun item member =>
            ⟨each item member, ordered item member, known item member⟩
  | set mode each =>
      have known := isFullyKnown_set_iff.mp known
      cases ordered with
      | set ordered =>
          exact .set mode fun item member =>
            ⟨each item member, ordered item member, known item member⟩
  | map mode each =>
      have known := isFullyKnown_map_iff.mp known
      cases ordered with
      | map sorted ordered =>
          exact .map mode sorted.nodup fun entry member =>
            ⟨each entry member, ordered entry member, known entry member⟩

/-! ## Equal proposals come from equal states -/

namespace Attribute

variable {attr : Attribute} {configured configured' state state' : Value}

/-- An attribute that is configured or computed is proposed as it stands. -/
private theorem Stable.propose_eq (stable : attr.Stable configured state)
    (settled : configured.isNull = false ∨ attr.flags.computed = true) :
    attr.propose state configured = state := by
  by_cases gap : configured.isNull = true
  · have computed : attr.flags.computed = true := settled.resolve_left (by simp [gap])
    simp [propose, gap, computed]
  · have given : attr.replanned configured state = configured := by
      simp [replanned, filled, filling, propose, gap]
    have same : state = configured := stable.symm.trans given
    simp [propose, gap, same]

/-- Attributes with equal proposals are equal.  One that is neither configured nor computed
is proposed as null, but then its state comes from the schema alone. -/
theorem same_of_same_propose (stable : attr.Stable configured state)
    (stable' : attr.Stable configured' state')
    (same : (attr.propose state configured).same (attr.propose state' configured') = true) :
    state.same state' = true := by
  cases computed : attr.flags.computed with
  | true => rwa [stable.propose_eq (.inr computed), stable'.propose_eq (.inr computed)] at same
  | false =>
      have proposed : ∀ state configured, attr.propose state configured = configured := by
        simp [propose, computed]
      have sameConfigured := same
      rw [proposed, proposed] at sameConfigured
      by_cases gap : configured.isNull = true
      · rcases Value.isNull_iff.mp gap with rfl
        rcases Value.isNull_iff.mp ((Value.null_same _).symm.trans sameConfigured) with rfl
        have states : state = state' := by
          rw [← stable, ← stable', replanned, replanned, proposed, proposed]
        exact states ▸ Value.same_refl state
      · have gap' : configured'.isNull = false := by
          refine Bool.eq_false_iff.mpr fun isNull => gap ?_
          rwa [Value.isNull_iff.mp isNull, Value.same_null] at sameConfigured
        rwa [stable.propose_eq (.inl (Bool.eq_false_iff.mpr gap)),
          stable'.propose_eq (.inl gap')] at same

end Attribute

/-! ## The proposals of elements -/

namespace Block

variable {block : Block} {items states : List Value}

/-- The proposals for configured elements, each from the state in its place. -/
def proposals (block : Block) (items states : List Value) : List Value :=
  items.mapIdx fun i item => block.propose (states[i]?.getD .null) item

theorem proposals_cons (item state : Value) (items states : List Value) :
    block.proposals (item :: items) (state :: states) =
      block.propose state item :: block.proposals items states := by
  simp [proposals, List.mapIdx_cons]

/-- The proposal of every state is among the proposals. -/
theorem exists_proposal (stable : List.Forall₂ block.Stable items states) {state : Value}
    (member : state ∈ states) : ∃ item ∈ items, block.Stable item state ∧
      block.propose state item ∈ block.proposals items states := by
  induction stable with
  | nil => cases member
  | @cons item first items states here _ inductionHypothesis =>
      rw [proposals_cons]
      rcases List.mem_cons.mp member with rfl | later
      · exact ⟨item, List.mem_cons_self, here, List.mem_cons_self⟩
      · rcases inductionHypothesis later with ⟨other, isItem, stable, proposed⟩
        exact ⟨other, List.mem_cons_of_mem _ isItem, stable, List.mem_cons_of_mem _ proposed⟩

/-- Every proposal is the proposal of a state. -/
theorem of_mem_proposals (stable : List.Forall₂ block.Stable items states) {proposed : Value}
    (member : proposed ∈ block.proposals items states) :
    ∃ item ∈ items, ∃ state ∈ states, block.Stable item state ∧
      proposed = block.propose state item := by
  induction stable with
  | nil => cases member
  | @cons item first items states here _ inductionHypothesis =>
      rw [proposals_cons] at member
      rcases List.mem_cons.mp member with rfl | later
      · exact ⟨item, List.mem_cons_self, first, List.mem_cons_self, here, rfl⟩
      · rcases inductionHypothesis later with ⟨other, isItem, state, isState, stable, same⟩
        exact ⟨other, List.mem_cons_of_mem _ isItem, state, List.mem_cons_of_mem _ isState, stable,
          same⟩

end Block

namespace NestedBlock

variable {nested : NestedBlock}

theorem isNull_propose (nested : NestedBlock) (before configured : Value) :
    (nested.propose before configured).isNull = configured.isNull := by
  rcases nested with ⟨block, mode, _, _⟩
  cases mode with
  | single =>
      cases block
      cases configured <;> rfl
  | _ => cases configured <;> rfl

/-- Equal proposals come from equal states, for one block. -/
private def ProposesInjectively (block : Block) : Prop :=
  ∀ {config config' state state' : Value}, Value.Configuration block.valueType config →
    Value.Configuration block.valueType config' → block.Stable config state →
      block.Stable config' state' →
        (block.propose state config).same (block.propose state' config') = true →
          state.same state' = true

private theorem list_same {block : Block} (inner : ProposesInjectively block)
    {items items' states states' : List Value}
    (configured : ∀ item ∈ items, Value.Configuration block.valueType item)
    (configured' : ∀ item ∈ items', Value.Configuration block.valueType item)
    (stable : List.Forall₂ block.Stable items states)
    (stable' : List.Forall₂ block.Stable items' states')
    (same : (Value.list (block.proposals items states)).same
      (.list (block.proposals items' states')) = true) :
    (Value.list states).same (.list states') = true := by
  rw [Value.same_list_iff] at same ⊢
  induction stable generalizing items' states' with
  | nil =>
      cases stable' with
      | nil => exact .nil
      | cons =>
          rw [Block.proposals_cons] at same
          cases same
  | @cons item state items states here _ inductionHypothesis =>
      rw [Block.proposals_cons] at same
      cases stable' with
      | nil => cases same
      | cons here' further' =>
          rw [Block.proposals_cons] at same
          rcases List.forall₂_cons.mp same with ⟨first, later⟩
          rcases List.forall_mem_cons.mp configured with ⟨known, configured⟩
          rcases List.forall_mem_cons.mp configured' with ⟨known', configured'⟩
          exact .cons (inner known known' here here' first)
            (inductionHypothesis configured configured' further' later)

private theorem set_same {block : Block} (inner : ProposesInjectively block)
    {items items' states states' : List Value}
    (configured : ∀ item ∈ items, Value.Configuration block.valueType item)
    (configured' : ∀ item ∈ items', Value.Configuration block.valueType item)
    (stable : List.Forall₂ block.Stable items states)
    (stable' : List.Forall₂ block.Stable items' states')
    (same : (Value.set (block.proposals items states)).same
      (.set (block.proposals items' states')) = true) :
    (Value.set states).same (.set states') = true := by
  rcases Value.same_set_iff.mp same with ⟨lengths, occurs⟩
  have lengths : states.length = states'.length := by
    simpa [Block.proposals, stable.length_eq, stable'.length_eq] using lengths
  refine Value.same_set_iff.mpr ⟨lengths, fun state member => ?_⟩
  rcases Block.exists_proposal stable member with ⟨item, isItem, itemStable, proposed⟩
  rcases occurs _ proposed with ⟨other, isOther, equal⟩
  rcases Block.of_mem_proposals stable' isOther
    with ⟨item', isItem', state', isState', stable', rfl⟩
  exact ⟨state', isState', inner (configured' item' isItem') (configured item isItem) stable'
    itemStable equal⟩

private theorem map_same {block : Block} (inner : ProposesInjectively block)
    {items items' states states' : List (String × Value)}
    (configured : ∀ entry ∈ items, Value.Configuration block.valueType entry.2)
    (configured' : ∀ entry ∈ items', Value.Configuration block.valueType entry.2)
    (nodup : (Entries.keys items).Nodup)
    (stable : Entries.Paired block.Stable items states)
    (stable' : Entries.Paired block.Stable items' states')
    (same : (Value.map (items.map fun entry =>
        (entry.1, block.propose ((Value.map states).entryOrNull entry.1) entry.2))).same
      (.map (items'.map fun entry =>
        (entry.1, block.propose ((Value.map states').entryOrNull entry.1) entry.2))) = true) :
    (Value.map states).same (.map states') = true := by
  have same := Value.same_map_iff.mp same
  have keys : Entries.keys items = Entries.keys items' := by
    simpa [Entries.keys, Function.comp_def] using same.1
  refine Value.same_map_iff.mpr (Entries.paired_of_find?
    (stable.1.symm.trans (keys.trans stable'.1)) (stable.1 ▸ nodup) ?_)
  intro key state state' isState isState'
  have left := stable.find? key
  have right := stable'.find? key
  have proposals := same.find? key
  rw [Entries.find?_map_with_key fun key item =>
      block.propose ((Value.map states).entryOrNull key) item,
    Entries.find?_map_with_key fun key item =>
      block.propose ((Value.map states').entryOrNull key) item,
    Value.entryOrNull, Value.entryOrNull, isState, isState'] at proposals
  rw [isState] at left
  rw [isState'] at right
  cases isItem : Entries.find? key items with
  | none =>
      rw [isItem] at left
      cases left
  | some item =>
      cases isItem' : Entries.find? key items' with
      | none =>
          rw [isItem'] at right
          cases right
      | some item' =>
          rw [isItem] at left proposals
          rw [isItem'] at right proposals
          cases left with
          | some itemStable =>
              cases right with
              | some itemStable' =>
                  cases proposals with
                  | some equal =>
                      exact inner (configured _ (Entries.mem_of_find? isItem))
                        (configured' _ (Entries.mem_of_find? isItem')) itemStable itemStable' equal

/-- Occurrences with equal proposals are equal when this is so for one occurrence. -/
private theorem same_of_same_propose (inner : ProposesInjectively nested.block)
    {configured configured' state state' : Value}
    (known : Value.Configuration nested.valueType configured)
    (known' : Value.Configuration nested.valueType configured')
    (stable : nested.Stable configured state) (stable' : nested.Stable configured' state')
    (same : (nested.propose state configured).same (nested.propose state' configured') = true) :
    state.same state' = true := by
  cases known.configured with
  | single mode known =>
      have known' : Value.Configuration nested.block.valueType configured' := by
        unfold valueType at known'
        rwa [mode] at known'
      rw [stable_single_iff mode] at stable stable'
      rw [propose_single mode, propose_single mode] at same
      exact inner known known' stable stable' same
  | null =>
      rw [propose_null, Value.null_same, isNull_propose] at same
      rcases Value.isNull_iff.mp same with rfl
      rw [(stable_null_iff nested).mp stable, (stable_null_iff nested).mp stable']
      rfl
  | list mode each =>
      have repeated : nested.mode ≠ .single := by simp [mode]
      rcases (stable_list_iff repeated _).mp stable with ⟨states, rfl, settled⟩
      rw [propose_list repeated] at same
      cases known'.configured with
      | list _ each' =>
          rcases (stable_list_iff repeated _).mp stable' with ⟨states', rfl, settled'⟩
          rw [propose_list repeated] at same
          exact list_same inner each each' settled settled' same
      | null =>
          rw [propose_null] at same
          cases same
      | _ => simp_all
  | set mode each =>
      have repeated : nested.mode ≠ .single := by simp [mode]
      rcases (stable_set_iff repeated _).mp stable with ⟨states, rfl, settled⟩
      rw [propose_set repeated] at same
      cases known'.configured with
      | set _ each' =>
          rcases (stable_set_iff repeated _).mp stable' with ⟨states', rfl, settled'⟩
          rw [propose_set repeated] at same
          exact set_same inner each each' settled settled' same
      | null =>
          rw [propose_null] at same
          cases same
      | _ => simp_all
  | map mode nodup each =>
      have repeated : nested.mode ≠ .single := by simp [mode]
      rcases (stable_map_iff repeated nodup).mp stable with ⟨states, rfl, settled⟩
      rw [propose_map repeated] at same
      cases known'.configured with
      | map _ nodup' each' =>
          rcases (stable_map_iff repeated nodup').mp stable' with ⟨states', rfl, settled'⟩
          rw [propose_map repeated] at same
          exact map_same inner each each' nodup settled settled' same
      | null =>
          rw [propose_null] at same
          cases same
      | _ => simp_all

end NestedBlock

/-- The occurrences of a nested block in a known configuration. -/
theorem Value.Configuration.nested {block : Block} {config : Value} {name : String}
    (known : Configuration block.valueType config) (wellFormed : block.WellFormed)
    {nested : NestedBlock} (found : Entries.find? name block.blocks = some nested) :
    Configuration nested.valueType (config.attributeNamed name) :=
  ⟨wellFormed.hasType_nested known.typed found, known.ordered.attributeNamed name,
    isFullyKnown_attributeNamed known.known name⟩

namespace Block

/-- Stable states with equal proposals are equal. -/
theorem WellFormed.same_of_same_propose {block : Block} (wellFormed : block.WellFormed)
    {config config' state state' : Value} (known : Value.Configuration block.valueType config)
    (known' : Value.Configuration block.valueType config') (stable : block.Stable config state)
    (stable' : block.Stable config' state')
    (same : (block.propose state config).same (block.propose state' config') = true) :
    state.same state' = true := by
  induction block, wellFormed using WellFormed.induct generalizing config config' state state' with
  | step block wellFormed inductionHypothesis =>
      rcases cases_of_hasType known.typed with rfl | rfl | ⟨entries, rfl, _⟩
      · rw [propose_null, Value.null_same, isNull_propose] at same
        rcases Value.isNull_iff.mp same with rfl
        rw [← stable, ← stable', replanned_null, replanned_null]
        rfl
      · cases known.known
      · rcases cases_of_hasType known'.typed with rfl | rfl | ⟨entries', rfl, _⟩
        · rw [propose_null, Value.same_null, isNull_propose] at same
          cases same
        · cases known'.known
        · rcases (wellFormed.stable_object_iff entries).mp stable
            with ⟨states, rfl, covers, attributes, blocks⟩
          rcases (wellFormed.stable_object_iff entries').mp stable'
            with ⟨states', rfl, covers', attributes', blocks'⟩
          refine Value.same_object_iff.mpr (wellFormed.paired covers covers' ?_ ?_)
          · intro name attr found
            have proposals := Value.attributeNamed_same same name
            rw [propose_object, propose_object, wellFormed.attribute_proposed found,
              wellFormed.attribute_proposed found] at proposals
            exact Attribute.same_of_same_propose (attributes name attr found)
              (attributes' name attr found) proposals
          · intro name nested found
            have proposals := Value.attributeNamed_same same name
            rw [propose_object, propose_object, wellFormed.nested_proposed found,
              wellFormed.nested_proposed found] at proposals
            exact NestedBlock.same_of_same_propose
              (inductionHypothesis _ (Entries.mem_of_find? found))
              (known.nested wellFormed found) (known'.nested wellFormed found)
              (blocks name nested found) (blocks' name nested found) proposals

end Block

/-! ## Proposals repeat nothing -/

theorem Attribute.distinctSets_propose {attr : Attribute} {prior configured : Value}
    (before : Value.DistinctSets prior) (distinct : Value.DistinctSets configured) :
    Value.DistinctSets (attr.propose prior configured) := by
  unfold propose
  split
  · exact before
  · exact distinct

namespace NestedBlock

variable {nested : NestedBlock}

/-- The proposals for the elements of a set differ because the elements do. -/
private theorem noRepeats_proposals {block : Block} (injective : ProposesInjectively block)
    {items states : List Value}
    (configured : ∀ item ∈ items, Value.Configuration block.valueType item)
    (known : ∀ state ∈ states, state.isFullyKnown = true)
    (stable : List.Forall₂ block.Stable items states) (distinct : Value.NoRepeats states) :
    Value.NoRepeats (block.proposals items states) := by
  induction stable with
  | nil => exact .nil
  | @cons item state items states here further inductionHypothesis =>
      rcases List.forall_mem_cons.mp configured with ⟨itemKnown, configured⟩
      rcases List.forall_mem_cons.mp known with ⟨_, known⟩
      rcases List.pairwise_cons.mp distinct with ⟨different, distinct⟩
      rw [Block.proposals_cons]
      refine List.pairwise_cons.mpr ⟨fun proposed member _ => ?_,
        inductionHypothesis configured known distinct⟩
      rcases Block.of_mem_proposals further member with ⟨other, isItem, later, isState, stable, rfl⟩
      refine Bool.eq_false_iff.mpr fun same => ?_
      have equal := injective itemKnown (configured other isItem) here stable same
      rw [different later isState (known later isState)] at equal
      cases equal

private theorem distinctSets_propose (injective : ProposesInjectively nested.block)
    (inner : ∀ configured state, Value.Configuration nested.block.valueType configured →
      Value.DistinctSets configured → state.isFullyKnown = true → Value.DistinctSets state →
        nested.block.Stable configured state →
          Value.DistinctSets (nested.block.propose state configured))
    {configured state : Value} (known : Value.Configuration nested.valueType configured)
    (distinct : Value.DistinctSets configured) (stateKnown : state.isFullyKnown = true)
    (stateDistinct : Value.DistinctSets state) (stable : nested.Stable configured state) :
    Value.DistinctSets (nested.propose state configured) := by
  cases known.configured with
  | single mode known =>
      rw [stable_single_iff mode] at stable
      rw [propose_single mode]
      exact inner _ _ known distinct stateKnown stateDistinct stable
  | null =>
      rw [propose_null]
      exact .null
  | list mode each =>
      have repeated : nested.mode ≠ .single := by simp [mode]
      rcases (stable_list_iff repeated _).mp stable with ⟨states, rfl, settled⟩
      have statesKnown := Value.isFullyKnown_list_iff.mp stateKnown
      have statesDistinct := Value.distinctSets_list_iff.mp stateDistinct
      have itemsDistinct := Value.distinctSets_list_iff.mp distinct
      rw [propose_list repeated]
      refine .list fun proposed member => ?_
      rcases Block.of_mem_proposals settled member
        with ⟨item, isItem, state, isState, stable, rfl⟩
      exact inner _ _ (each item isItem) (itemsDistinct item isItem) (statesKnown state isState)
        (statesDistinct state isState) stable
  | set mode each =>
      have repeated : nested.mode ≠ .single := by simp [mode]
      rcases (stable_set_iff repeated _).mp stable with ⟨states, rfl, settled⟩
      have statesKnown := Value.isFullyKnown_set_iff.mp stateKnown
      rcases Value.distinctSets_set_iff.mp stateDistinct with ⟨statesDistinct, noRepeats⟩
      have itemsDistinct := (Value.distinctSets_set_iff.mp distinct).1
      rw [propose_set repeated]
      refine .set (fun proposed member => ?_)
        (noRepeats_proposals injective each statesKnown settled noRepeats)
      rcases Block.of_mem_proposals settled member
        with ⟨item, isItem, state, isState, stable, rfl⟩
      exact inner _ _ (each item isItem) (itemsDistinct item isItem) (statesKnown state isState)
        (statesDistinct state isState) stable
  | @map items mode nodup each =>
      have repeated : nested.mode ≠ .single := by simp [mode]
      rcases (stable_map_iff repeated nodup).mp stable with ⟨states, rfl, settled⟩
      have statesKnown := Value.isFullyKnown_map_iff.mp stateKnown
      have statesDistinct := Value.distinctSets_map_iff.mp stateDistinct
      have itemsDistinct := Value.distinctSets_map_iff.mp distinct
      rw [propose_map repeated]
      refine .map (List.forall_mem_map.mpr fun entry member => ?_)
      have related := settled.find? entry.1
      rw [Entries.find?_of_mem nodup member] at related
      rw [Value.entryOrNull]
      cases found : Entries.find? entry.1 states with
      | none =>
          rw [found] at related
          cases related
      | some state =>
          rw [found] at related
          have isState := Entries.mem_of_find? found
          cases related with
          | some stable =>
              exact inner _ _ (each entry member) (itemsDistinct entry member)
                (statesKnown _ isState) (statesDistinct _ isState) stable

end NestedBlock

/-- The proposal from a stable state repeats no element of a set. -/
theorem Block.WellFormed.distinctSets_propose {block : Block} (wellFormed : block.WellFormed)
    {config state : Value} (known : Value.Configuration block.valueType config)
    (distinct : Value.DistinctSets config) (stateKnown : state.isFullyKnown = true)
    (stateDistinct : Value.DistinctSets state) (stable : block.Stable config state) :
    Value.DistinctSets (block.propose state config) := by
  induction block, wellFormed using WellFormed.induct generalizing config state with
  | step block wellFormed inductionHypothesis =>
      rcases cases_of_hasType known.typed with rfl | rfl | ⟨entries, rfl, _⟩
      · rw [propose_null]
        exact .null
      · cases known.known
      · rcases (wellFormed.stable_object_iff entries).mp stable with ⟨states, rfl, _, _, blocks⟩
        rw [propose_object]
        refine .object (wellFormed.forall_entries (block.covers_proposedEntries _ _) ?_ ?_)
        · intro name attr found
          rw [wellFormed.attribute_proposed found]
          exact Attribute.distinctSets_propose (stateDistinct.attributeNamed name)
            (distinct.attributeNamed name)
        · intro name nested found
          rw [wellFormed.nested_proposed found]
          refine NestedBlock.distinctSets_propose
            (wellFormed.nested found).same_of_same_propose (fun _ _ known distinct => ?_)
            (known.nested wellFormed found) (distinct.attributeNamed name)
            (Value.isFullyKnown_attributeNamed stateKnown name)
            (stateDistinct.attributeNamed name) (blocks name nested found)
          exact inductionHypothesis _ (Entries.mem_of_find? found) known distinct

end ProviderKit
