import ProviderKit.Proofs.Planning.Stability

/-!
# Plans are stable

Three facts about an attribute carry over to whole states.  What a plan proposes and
completes with defaults is stable, whatever the prior state was.  Making computed attributes
unknown keeps stability.  Putting known values in the place of unknown ones keeps it too,
since nothing but a computed attribute without a default is ever unknown in a plan for a
known configuration.

Whatever the provider makes of a plan, the next plan for the same configuration therefore
finds nothing to do.
-/

namespace ProviderKit

namespace Attribute

variable {attr : Attribute} {configured : Value}

/-- Planning an attribute again keeps any state, or gives one value whatever the state is:
the configured value, which may be null, or the default. -/
theorem replanned_cases (attr : Attribute) (configured : Value) :
    (∀ state, attr.replanned configured state = state) ∨
      ∃ given, (∀ state, attr.replanned configured state = given) ∧
        (given = configured ∨ ∃ document, attr.defaultValue = some document ∧
          Value.ofJson attr.type document = .ok given) := by
  by_cases gap : configured.isNull = true
  · by_cases given : ∃ document value, attr.defaultValue = some document ∧
        Value.ofJson attr.type document = .ok value
    · rcases given with ⟨document, value, default, decoded⟩
      refine .inr ⟨value, fun state => ?_, .inr ⟨document, default, decoded⟩⟩
      simp [replanned, filled, filling, gap, default, decoded]
    · have kept : ∀ state, attr.replanned configured state = attr.propose state configured := by
        intro state
        unfold replanned filled filling
        rw [if_pos gap]
        cases default : attr.defaultValue with
        | none => rfl
        | some document =>
            cases decoded : Value.ofJson attr.type document with
            | error problem => simp [decoded]
            | ok value => exact absurd ⟨document, value, default, decoded⟩ given
      cases computed : attr.flags.computed with
      | true => exact .inl fun state => by simp [kept, propose, gap, computed]
      | false => exact .inr ⟨configured, fun state => by simp [kept, propose, computed], .inl rfl⟩
  · refine .inr ⟨configured, fun state => ?_, .inl rfl⟩
    simp [replanned, filled, filling, propose, gap]

/-- What is planned for an attribute is stable. -/
theorem stable_replanned (attr : Attribute) (configured state : Value) :
    attr.Stable configured (attr.replanned configured state) := by
  rcases attr.replanned_cases configured with kept | ⟨given, replans, _⟩
  · exact kept _
  · exact (replans _).trans (replans _).symm

/-- A computed attribute that becomes unknown is one whose state is kept. -/
theorem Stable.filled_unknowns {state : Value} (stable : attr.Stable configured state) :
    attr.Stable configured (attr.filled .unknowns configured state) := by
  by_cases computed : configured.isNull = true ∧ attr.defaultValue = none ∧
      attr.flags.computed = true
  · rcases computed with ⟨gap, default, computed⟩
    simp [Stable, replanned, filled, filling, propose, gap, default, computed]
  · have kept : attr.filled .unknowns configured state = state := by
      unfold filled filling
      by_cases gap : configured.isNull = true
      · rw [if_pos gap]
        cases default : attr.defaultValue with
        | none => simp [show attr.flags.computed = false by simpa [gap, default] using computed]
        | some document => rfl
      · rw [if_neg gap]
    rw [kept]
    exact stable

/-- Known values in unknown places keep an attribute stable. -/
theorem Stable.refines (known : attr.DefaultKnown)
    (configuredKnown : configured.isFullyKnown = true)
    {planned state : Value} (stable : attr.Stable configured planned)
    (refines : planned.Refines state) : attr.Stable configured state := by
  rcases attr.replanned_cases configured with kept | ⟨given, replans, origin⟩
  · exact kept state
  · have same : given = planned := (replans planned).symm.trans stable
    have givenKnown : given.isFullyKnown = true := by
      rcases origin with rfl | ⟨document, default, decoded⟩
      · exact configuredKnown
      · rcases known document default with ⟨value, found, valueKnown⟩
        rw [found] at decoded
        exact Except.ok.inj decoded ▸ valueKnown
    have unchanged : state = planned := refines.eq_of_isFullyKnown (same ▸ givenKnown)
    exact unchanged ▸ stable

end Attribute

namespace NestedBlock

variable {nested : NestedBlock} {configured state : Value}

/-- What is planned for occurrences is stable when this is so for one occurrence. -/
private theorem stable_replanned
    (inner : ∀ configured state, Value.HasType nested.block.valueType configured →
      configured.KeyOrdered →
        nested.block.Stable configured (nested.block.replanned configured state))
    (typed : Value.HasType nested.valueType configured) (ordered : configured.KeyOrdered) :
    nested.Stable configured (nested.replanned configured state) := by
  cases occurrences_of_hasType typed with
  | single mode typed =>
      rw [stable_single_iff mode, replanned_single mode]
      exact inner _ _ typed ordered
  | null => exact (stable_null_iff nested).mpr (replanned_null nested)
  | unknown => exact (stable_unknown_iff nested).mpr (replanned_unknown nested)
  | list mode each =>
      have repeated : nested.mode ≠ .single := by simp [mode]
      cases ordered with
      | list ordered =>
          rw [replanned_list repeated]
          refine (stable_list_iff repeated _).mpr ⟨_, rfl, Value.forall₂_mapIdx ?_⟩
          exact fun item member i => inner item _ (each item member) (ordered item member)
  | set mode each =>
      have repeated : nested.mode ≠ .single := by simp [mode]
      cases ordered with
      | set ordered =>
          rw [replanned_set repeated]
          refine (stable_set_iff repeated _).mpr ⟨_, rfl, Value.forall₂_mapIdx ?_⟩
          exact fun item member i => inner item _ (each item member) (ordered item member)
  | map mode each =>
      have repeated : nested.mode ≠ .single := by simp [mode]
      cases ordered with
      | map sorted ordered =>
          rw [replanned_map repeated sorted.nodup]
          refine (stable_map_iff repeated sorted.nodup).mpr ⟨_, rfl, ?_⟩
          refine Entries.paired_of_find? (Entries.keys_map_with_key (fun key item =>
            nested.block.replanned item (state.entryOrNull key)) _).symm sorted.nodup ?_
          intro key item result isItem isResult
          rw [Entries.find?_map_with_key fun key item =>
            nested.block.replanned item (state.entryOrNull key), isItem] at isResult
          cases isResult
          have member := Entries.mem_of_find? isItem
          exact inner item _ (each _ member) (ordered _ member)

/-- Making computed attributes unknown keeps occurrences stable when it keeps each one
stable. -/
private theorem Stable.fill_unknowns
    (inner : ∀ configured state, Value.HasType nested.block.valueType configured →
      configured.KeyOrdered → nested.block.Stable configured state →
        nested.block.Stable configured (nested.block.fill .unknowns configured state))
    (typed : Value.HasType nested.valueType configured) (ordered : configured.KeyOrdered)
    (stable : nested.Stable configured state) :
    nested.Stable configured (nested.fill .unknowns configured state) := by
  cases occurrences_of_hasType typed with
  | single mode typed =>
      rw [stable_single_iff mode] at stable ⊢
      rw [fill_single mode]
      exact inner _ _ typed ordered stable
  | null =>
      rcases (stable_null_iff nested).mp stable with rfl
      rw [fill_null]
      exact stable
  | unknown =>
      rcases (stable_unknown_iff nested).mp stable with rfl
      rw [fill_unknown]
      exact stable
  | list mode each =>
      have repeated : nested.mode ≠ .single := by simp [mode]
      rcases (stable_list_iff repeated _).mp stable with ⟨states, rfl, settled⟩
      cases ordered with
      | list ordered =>
          rw [fill_list repeated]
          refine (stable_list_iff repeated _).mpr ⟨_, rfl, ?_⟩
          refine Value.forall₂_mapIdx_counterpart settled fun item member state => ?_
          exact inner item state (each item member) (ordered item member)
  | set mode each =>
      have repeated : nested.mode ≠ .single := by simp [mode]
      rcases (stable_set_iff repeated _).mp stable with ⟨states, rfl, settled⟩
      cases ordered with
      | set ordered =>
          rw [fill_set repeated]
          refine (stable_set_iff repeated _).mpr ⟨_, rfl, ?_⟩
          refine Value.forall₂_mapIdx_counterpart settled fun item member state => ?_
          exact inner item state (each item member) (ordered item member)
  | @map items mode each =>
      have repeated : nested.mode ≠ .single := by simp [mode]
      cases ordered with
      | map sorted ordered =>
          rcases (stable_map_iff repeated sorted.nodup).mp stable with ⟨states, rfl, settled⟩
          rw [fill_map repeated]
          refine (stable_map_iff repeated sorted.nodup).mpr ⟨_, rfl, ?_⟩
          have keys := Entries.keys_map_with_key (fun key state =>
            nested.block.fill .unknowns ((Value.map items).entryOrNull key) state) states
          apply Entries.paired_of_find? (settled.1.trans keys.symm) sorted.nodup
          intro key item result isItem isResult
          have related := settled.find? key
          rw [Entries.find?_map_with_key fun key state =>
            nested.block.fill .unknowns ((Value.map items).entryOrNull key) state] at isResult
          rcases Option.map_eq_some_iff.mp isResult with ⟨state, isState, rfl⟩
          rw [isItem, isState] at related
          rw [Value.entryOrNull, isItem]
          have member := Entries.mem_of_find? isItem
          cases related with
          | some stable => exact inner item state (each _ member) (ordered _ member) stable

/-- Known values in unknown places keep occurrences stable when they keep each one stable. -/
private theorem Stable.refines
    (inner : ∀ configured planned state, Value.HasType nested.block.valueType configured →
      configured.KeyOrdered → configured.isFullyKnown = true →
        nested.block.Stable configured planned → planned.Refines state →
          nested.block.Stable configured state)
    (typed : Value.HasType nested.valueType configured) (ordered : configured.KeyOrdered)
    (known : configured.isFullyKnown = true) {planned : Value}
    (stable : nested.Stable configured planned) (refines : planned.Refines state) :
    nested.Stable configured state := by
  have elements : ∀ {items planned states : List Value},
      (∀ item ∈ items, Value.HasType nested.block.valueType item) →
      (∀ item ∈ items, item.KeyOrdered) → (∀ item ∈ items, item.isFullyKnown = true) →
      List.Forall₂ nested.block.Stable items planned → List.Forall₂ Value.Refines planned states →
        List.Forall₂ nested.block.Stable items states := by
    intro items planned states each ordered known settled
    induction settled generalizing states with
    | nil =>
        intro related
        cases related
        exact .nil
    | cons first _ inductionHypothesis =>
        intro related
        rcases List.forall₂_cons_left_iff.mp related with ⟨state, others, here, further, rfl⟩
        rcases List.forall_mem_cons.mp each with ⟨typed, each⟩
        rcases List.forall_mem_cons.mp ordered with ⟨itemOrdered, ordered⟩
        rcases List.forall_mem_cons.mp known with ⟨itemKnown, known⟩
        exact .cons (inner _ _ _ typed itemOrdered itemKnown first here)
          (inductionHypothesis each ordered known further)
  cases occurrences_of_hasType typed with
  | single mode typed =>
      rw [stable_single_iff mode] at stable ⊢
      exact inner _ _ _ typed ordered known stable refines
  | null =>
      rcases (stable_null_iff nested).mp stable with rfl
      exact refines.of_null ▸ stable
  | unknown => cases known
  | list mode each =>
      have repeated : nested.mode ≠ .single := by simp [mode]
      rcases (stable_list_iff repeated _).mp stable with ⟨planned, rfl, settled⟩
      rcases refines.of_list with ⟨states, rfl, related⟩
      cases ordered with
      | list ordered =>
          refine (stable_list_iff repeated _).mpr ⟨states, rfl, ?_⟩
          exact elements each ordered (Value.isFullyKnown_list_iff.mp known) settled related
  | set mode each =>
      have repeated : nested.mode ≠ .single := by simp [mode]
      rcases (stable_set_iff repeated _).mp stable with ⟨planned, rfl, settled⟩
      rcases refines.of_set with ⟨states, rfl, related⟩
      cases ordered with
      | set ordered =>
          refine (stable_set_iff repeated _).mpr ⟨states, rfl, ?_⟩
          exact elements each ordered (Value.isFullyKnown_set_iff.mp known) settled related
  | map mode each =>
      have repeated : nested.mode ≠ .single := by simp [mode]
      cases ordered with
      | map sorted ordered =>
          rcases (stable_map_iff repeated sorted.nodup).mp stable with ⟨planned, rfl, settled⟩
          rcases refines.of_map with ⟨states, rfl, related⟩
          refine (stable_map_iff repeated sorted.nodup).mpr
            ⟨states, rfl, settled.1.trans related.1, ?_⟩
          exact elements (List.forall_mem_map.mpr each) (List.forall_mem_map.mpr ordered)
            (List.forall_mem_map.mpr (Value.isFullyKnown_map_iff.mp known)) settled.2 related.2

end NestedBlock

namespace Block.WellFormed

variable {block : Block} {config state : Value}

/-- What is planned is stable, whatever the prior state was. -/
theorem stable_replanned (wellFormed : block.WellFormed)
    (typed : Value.HasType block.valueType config) (ordered : config.KeyOrdered) (state : Value) :
    block.Stable config (block.replanned config state) := by
  induction block, wellFormed using WellFormed.induct generalizing config state with
  | step block wellFormed inductionHypothesis =>
      rcases cases_of_hasType typed with rfl | rfl | ⟨entries, rfl, _⟩
      · rw [replanned_null]
        exact replanned_null block
      · rw [replanned_unknown]
        exact replanned_unknown block
      · refine (wellFormed.stable_object_iff entries).mpr
          ⟨_, block.replanned_object entries state, ?_, ?_, ?_⟩
        · exact wellFormed.covers_filledEntries (covers_proposedEntries ..)
        · intro name attr found
          rw [← replanned_object, wellFormed.attribute_replanned entries state found]
          exact attr.stable_replanned _ _
        · intro name nested found
          rw [← replanned_object, wellFormed.nested_replanned entries state found]
          refine NestedBlock.stable_replanned (fun configured state typed ordered => ?_)
            (wellFormed.hasType_nested typed found) (ordered.attributeNamed name)
          exact inductionHypothesis _ (Entries.mem_of_find? found) typed ordered state

/-- Making computed attributes unknown keeps a state stable. -/
theorem stable_fill_unknowns (wellFormed : block.WellFormed)
    (typed : Value.HasType block.valueType config) (ordered : config.KeyOrdered)
    (stable : block.Stable config state) :
    block.Stable config (block.fill .unknowns config state) := by
  induction block, wellFormed using WellFormed.induct generalizing config state with
  | step block wellFormed inductionHypothesis =>
      rcases cases_of_hasType typed with rfl | rfl | ⟨entries, rfl, _⟩
      · rcases stable.symm.trans (replanned_null block) with rfl : state = .null
        rw [fill_null]
        exact stable
      · rcases stable.symm.trans (replanned_unknown block) with rfl : state = .unknown
        rw [fill_unknown]
        exact stable
      · rcases (wellFormed.stable_object_iff entries).mp stable
          with ⟨planned, rfl, covers, attributes, blocks⟩
        refine (wellFormed.stable_object_iff entries).mpr
          ⟨_, block.fill_object _ _ _, wellFormed.covers_filledEntries covers, ?_, ?_⟩
        · intro name attr found
          rw [wellFormed.attribute_filled covers found]
          exact (attributes name attr found).filled_unknowns
        · intro name nested found
          rw [wellFormed.nested_filled covers found]
          refine NestedBlock.Stable.fill_unknowns (fun configured state typed ordered => ?_)
            (wellFormed.hasType_nested typed found) (ordered.attributeNamed name)
            (blocks name nested found)
          exact inductionHypothesis _ (Entries.mem_of_find? found) typed ordered

/-- Known values in unknown places keep a state stable. -/
theorem stable_refines (wellFormed : block.WellFormed) (known : block.DefaultsKnown)
    (typed : Value.HasType block.valueType config) (ordered : config.KeyOrdered)
    (configKnown : config.isFullyKnown = true) {planned : Value}
    (stable : block.Stable config planned) (refines : planned.Refines state) :
    block.Stable config state := by
  induction block, wellFormed using WellFormed.induct generalizing config planned state with
  | step block wellFormed inductionHypothesis =>
      rcases cases_of_hasType typed with rfl | rfl | ⟨entries, rfl, _⟩
      · rcases stable.symm.trans (replanned_null block) with rfl : planned = .null
        exact refines.of_null ▸ stable
      · cases configKnown
      · rcases (wellFormed.stable_object_iff entries).mp stable
          with ⟨planned, rfl, covers, attributes, blocks⟩
        rcases refines.of_object with ⟨final, rfl, related⟩
        refine (wellFormed.stable_object_iff entries).mpr
          ⟨final, rfl, related.1.symm.trans covers, ?_, ?_⟩
        · intro name attr found
          exact (attributes name attr found).refines (known.attribute found)
            (Value.isFullyKnown_attributeNamed configKnown name)
            (Value.Refines.attributeNamed_object related name)
        · intro name nested found
          refine NestedBlock.Stable.refines (fun _ _ _ typed ordered configuredKnown => ?_)
            (wellFormed.hasType_nested typed found) (ordered.attributeNamed name)
            (Value.isFullyKnown_attributeNamed configKnown name) (blocks name nested found)
            (Value.Refines.attributeNamed_object related name)
          exact inductionHypothesis _ (Entries.mem_of_find? found) (known.nested found) typed
            ordered configuredKnown

end Block.WellFormed
end ProviderKit
