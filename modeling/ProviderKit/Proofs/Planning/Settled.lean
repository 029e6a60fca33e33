import ProviderKit.Proofs.Planning.Completion

/-!
# Passes that are repeated

A planned value is settled under a pass when the pass does not change it.  A pass settles every
value, and it stays settled whatever the other pass does to it: at no attribute is there something
to fill for both.  A value can also be settled from the outset, and under the pass that makes
attributes unknown this is so whenever nothing in the result is unknown.

Like other properties of planned values these are shown of one attribute and carried over to
objects, occurrence by occurrence.  The problems that a pass reports depend on the occurrences that
are there but not on their attributes, so they are the same each time.
-/

namespace ProviderKit

/-- The pass does not change the planned attribute. -/
def Attribute.Settled (attr : Attribute) (pass : PlanPass) (configured planned : Value) : Prop :=
  attr.filled pass configured planned = planned

/-- The pass does not change the planned value of the block. -/
def Block.Settled (block : Block) (pass : PlanPass) (config planned : Value) : Prop :=
  block.fill pass config planned = planned

/-- The pass does not change the planned occurrences of the block. -/
def NestedBlock.Settled (nested : NestedBlock) (pass : PlanPass) (configured planned : Value) :
    Prop :=
  nested.fill pass configured planned = planned

namespace Attribute

variable {attr : Attribute} {pass other : PlanPass} {configured planned : Value}

theorem filled_of_filling_eq_none (nothing : attr.filling pass configured = none)
    (planned : Value) : attr.filled pass configured planned = planned := by
  rw [filled, nothing]

/-- What one pass fills, the other one leaves alone. -/
theorem filling_eq_none_of_ne (different : other ≠ pass)
    (filling : (attr.filling other configured).isSome = true) :
    attr.filling pass configured = none := by
  unfold Attribute.filling at *
  by_cases gap : configured.isNull = true
  · rw [if_pos gap] at filling ⊢
    revert filling
    cases attr.defaultValue <;> cases other <;> cases pass <;> simp_all
  · rw [if_neg gap]

/-- A pass settles an attribute, and the other pass keeps it settled. -/
theorem settled_filled (before : other = pass ∨ attr.Settled pass configured planned) :
    attr.Settled pass configured (attr.filled other configured planned) := by
  cases chosen : attr.filling other configured with
  | none =>
      rw [filled_of_filling_eq_none chosen]
      rcases before with rfl | settled
      · exact filled_of_filling_eq_none chosen planned
      · exact settled
  | some result =>
      by_cases same : other = pass
      · subst same
        unfold Settled filled
        rw [chosen]
        cases result <;> rfl
      · exact filled_of_filling_eq_none (filling_eq_none_of_ne same (chosen ▸ rfl)) _

/-- An attribute that is known afterwards has not become unknown. -/
theorem settled_of_isFullyKnown
    (known : (attr.filled .unknowns configured planned).isFullyKnown = true) :
    attr.Settled .unknowns configured planned := by
  by_cases unknown : attr.filled .unknowns configured planned = .unknown
  · rw [unknown] at known
    cases known
  · unfold Settled filled filling at *
    by_cases gap : configured.isNull = true
    · rw [if_pos gap] at unknown ⊢
      cases default : attr.defaultValue with
      | none =>
          cases computed : attr.flags.computed with
          | true => simp [default, computed] at unknown
          | false => rfl
      | some document => rfl
    · rw [if_neg gap]

end Attribute

/-! ## Settled by parts -/

namespace Value

theorem mapIdx_eq_self_iff {f : Nat → Value → Value} {items : List Value} :
    items.mapIdx f = items ↔ ∀ i (bound : i < items.length), f i items[i] = items[i] := by
  constructor
  · intro same i bound
    have atPlace := List.getElem_mapIdx (f := f) (h := by simpa using bound)
    simp only [same] at atPlace
    exact atPlace.symm
  · intro each
    refine List.ext_getElem List.length_mapIdx fun i _ bound => ?_
    rw [List.getElem_mapIdx]
    exact each i bound

theorem map_entries_eq_self_iff {f : String → Value → Value} {items : List (String × Value)} :
    (items.map fun entry => (entry.1, f entry.1 entry.2)) = items ↔
      ∀ entry ∈ items, f entry.1 entry.2 = entry.2 := by
  induction items with
  | nil => simp
  | cons entry rest inductionHypothesis =>
      rw [List.map_cons, List.cons_eq_cons, inductionHypothesis, List.forall_mem_cons]
      refine and_congr_left fun _ => ?_
      rw [Prod.ext_iff]
      exact and_iff_right rfl

end Value

namespace NestedBlock

variable {nested : NestedBlock} {pass other : PlanPass} {configured planned : Value}

theorem settled_single_iff (single : nested.mode = .single) :
    nested.Settled pass configured planned ↔ nested.block.Settled pass configured planned := by
  unfold Settled Block.Settled
  rw [fill_single single]

theorem settled_list_iff (repeated : nested.mode ≠ .single) (elements : List Value) :
    nested.Settled pass configured (.list elements) ↔ ∀ i (bound : i < elements.length),
      nested.block.Settled pass (configured.elementOrNull i) elements[i] := by
  unfold Settled
  rw [fill_list repeated, Value.list.injEq]
  exact Value.mapIdx_eq_self_iff

theorem settled_set_iff (repeated : nested.mode ≠ .single) (elements : List Value) :
    nested.Settled pass configured (.set elements) ↔ ∀ i (bound : i < elements.length),
      nested.block.Settled pass (configured.elementOrNull i) elements[i] := by
  unfold Settled
  rw [fill_set repeated, Value.set.injEq]
  exact Value.mapIdx_eq_self_iff

theorem settled_map_iff (repeated : nested.mode ≠ .single) (entries : List (String × Value)) :
    nested.Settled pass configured (.map entries) ↔ ∀ entry ∈ entries,
      nested.block.Settled pass (configured.entryOrNull entry.1) entry.2 := by
  unfold Settled
  rw [fill_map repeated, Value.map.injEq]
  exact Value.map_entries_eq_self_iff (f := fun key entry =>
    nested.block.fill pass (configured.entryOrNull key) entry)

end NestedBlock

namespace Block.WellFormed

variable {block : Block} {pass other : PlanPass} {config : Value}

theorem settled_object_iff (wellFormed : block.WellFormed) {planned : List (String × Value)}
    (covers : block.Covers planned) :
    block.Settled pass config (.object planned) ↔
      (∀ name attr, Entries.find? name block.attributes = some attr →
        attr.Settled pass (config.attributeNamed name)
          ((Value.object planned).attributeNamed name)) ∧
      ∀ name nested, Entries.find? name block.blocks = some nested →
        nested.Settled pass (config.attributeNamed name)
          ((Value.object planned).attributeNamed name) := by
  unfold Settled
  rw [fill_object, Value.object.injEq]
  constructor
  · intro same
    refine ⟨fun name attr found => ?_, fun name nested found => ?_⟩
    · have filled : (Value.object (block.filledEntries pass config planned)).attributeNamed name =
          _ := wellFormed.attribute_filled covers found
      rw [same] at filled
      exact filled.symm
    · have filled : (Value.object (block.filledEntries pass config planned)).attributeNamed name =
          _ := wellFormed.nested_filled covers found
      rw [same] at filled
      exact filled.symm
  · rintro ⟨attributes, blocks⟩
    refine wellFormed.object_ext (wellFormed.covers_filledEntries covers) covers ?_ ?_
    · intro name attr found
      rw [wellFormed.attribute_filled covers found]
      exact attributes name attr found
    · intro name nested found
      rw [wellFormed.nested_filled covers found]
      exact blocks name nested found

end Block.WellFormed

/-! ## A pass settles a value -/

namespace NestedBlock

variable {nested : NestedBlock} {pass other : PlanPass} {configured planned : Value}

/-- Occurrences are settled by a pass that settles each of them. -/
private theorem settled_fill
    (inner : ∀ configured planned, Value.HasType nested.block.valueType planned →
      other = pass ∨ nested.block.Settled pass configured planned →
        nested.block.Settled pass configured (nested.block.fill other configured planned))
    (typed : Value.HasType nested.valueType planned)
    (before : other = pass ∨ nested.Settled pass configured planned) :
    nested.Settled pass configured (nested.fill other configured planned) := by
  cases occurrences_of_hasType typed with
  | single mode typed =>
      rw [settled_single_iff mode] at before ⊢
      rw [fill_single mode]
      exact inner _ _ typed before
  | null =>
      rw [fill_null]
      exact fill_null nested
  | unknown =>
      rw [fill_unknown]
      exact fill_unknown nested
  | list mode each =>
      have repeated : nested.mode ≠ .single := by simp [mode]
      rw [settled_list_iff repeated] at before
      rw [fill_list repeated, settled_list_iff repeated]
      intro i bound
      rw [List.length_mapIdx] at bound
      rw [List.getElem_mapIdx]
      exact inner _ _ (each _ (List.getElem_mem bound)) (before.imp_right fun all => all i bound)
  | set mode each =>
      have repeated : nested.mode ≠ .single := by simp [mode]
      rw [settled_set_iff repeated] at before
      rw [fill_set repeated, settled_set_iff repeated]
      intro i bound
      rw [List.length_mapIdx] at bound
      rw [List.getElem_mapIdx]
      exact inner _ _ (each _ (List.getElem_mem bound)) (before.imp_right fun all => all i bound)
  | map mode each =>
      have repeated : nested.mode ≠ .single := by simp [mode]
      rw [settled_map_iff repeated] at before
      rw [fill_map repeated, settled_map_iff repeated]
      refine List.forall_mem_map.mpr fun entry member => ?_
      exact inner _ _ (each entry member) (before.imp_right fun all => all entry member)

/-- Occurrences that are known afterwards are settled from the outset when each of them is. -/
private theorem settled_of_isFullyKnown
    (inner : ∀ configured planned, Value.HasType nested.block.valueType planned →
      (nested.block.fill .unknowns configured planned).isFullyKnown = true →
        nested.block.Settled .unknowns configured planned)
    (typed : Value.HasType nested.valueType planned)
    (known : (nested.fill .unknowns configured planned).isFullyKnown = true) :
    nested.Settled .unknowns configured planned := by
  cases occurrences_of_hasType typed with
  | single mode typed =>
      rw [fill_single mode] at known
      exact (settled_single_iff mode).mpr (inner _ _ typed known)
  | null => exact fill_null nested
  | unknown => exact fill_unknown nested
  | list mode each =>
      have repeated : nested.mode ≠ .single := by simp [mode]
      rw [fill_list repeated, Value.isFullyKnown_list_iff] at known
      refine (settled_list_iff repeated _).mpr fun i bound => ?_
      exact inner _ _ (each _ (List.getElem_mem bound))
        (known _ (List.mem_mapIdx.mpr ⟨i, bound, rfl⟩))
  | set mode each =>
      have repeated : nested.mode ≠ .single := by simp [mode]
      rw [fill_set repeated, Value.isFullyKnown_set_iff] at known
      refine (settled_set_iff repeated _).mpr fun i bound => ?_
      exact inner _ _ (each _ (List.getElem_mem bound))
        (known _ (List.mem_mapIdx.mpr ⟨i, bound, rfl⟩))
  | map mode each =>
      have repeated : nested.mode ≠ .single := by simp [mode]
      rw [fill_map repeated, Value.isFullyKnown_map_iff] at known
      refine (settled_map_iff repeated _).mpr fun entry member => ?_
      exact inner _ _ (each entry member) (List.forall_mem_map.mp known entry member)

end NestedBlock

namespace Block.WellFormed

variable {block : Block} {pass other : PlanPass} {config planned : Value}

/-- A pass settles a value, and the other pass keeps it settled. -/
theorem settled_fill (wellFormed : block.WellFormed)
    (typed : Value.HasType block.valueType planned)
    (before : other = pass ∨ block.Settled pass config planned) :
    block.Settled pass config (block.fill other config planned) := by
  induction block, wellFormed using WellFormed.induct generalizing config planned with
  | step block wellFormed inductionHypothesis =>
      rcases cases_of_hasType typed with rfl | rfl | ⟨entries, rfl, covers⟩
      · rw [fill_null]
        exact block.fill_null pass config
      · rw [fill_unknown]
        exact block.fill_unknown pass config
      · rw [wellFormed.settled_object_iff covers] at before
        rw [fill_object, wellFormed.settled_object_iff (wellFormed.covers_filledEntries covers)]
        refine ⟨fun name attr found => ?_, fun name nested found => ?_⟩
        · rw [wellFormed.attribute_filled covers found]
          exact Attribute.settled_filled (before.imp_right fun both => both.1 name attr found)
        · rw [wellFormed.nested_filled covers found]
          refine NestedBlock.settled_fill (fun _ _ typed before => ?_)
            (wellFormed.hasType_nested typed found)
            (before.imp_right fun both => both.2 name nested found)
          exact inductionHypothesis _ (Entries.mem_of_find? found) typed before

/-- Where nothing is unknown after computed attributes became unknown, none did. -/
theorem settled_of_isFullyKnown (wellFormed : block.WellFormed)
    (typed : Value.HasType block.valueType planned)
    (known : (block.fill .unknowns config planned).isFullyKnown = true) :
    block.Settled .unknowns config planned := by
  induction block, wellFormed using WellFormed.induct generalizing config planned with
  | step block wellFormed inductionHypothesis =>
      rcases cases_of_hasType typed with rfl | rfl | ⟨entries, rfl, covers⟩
      · exact block.fill_null .unknowns config
      · exact block.fill_unknown .unknowns config
      · rw [fill_object] at known
        have member := Value.isFullyKnown_attributeNamed known
        refine (wellFormed.settled_object_iff covers).mpr
          ⟨fun name attr found => ?_, fun name nested found => ?_⟩
        · have here := member name
          rw [wellFormed.attribute_filled covers found] at here
          exact Attribute.settled_of_isFullyKnown here
        · have here := member name
          rw [wellFormed.nested_filled covers found] at here
          refine NestedBlock.settled_of_isFullyKnown (fun _ _ typed known => ?_)
            (wellFormed.hasType_nested typed found) here
          exact inductionHypothesis _ (Entries.mem_of_find? found) typed known

end Block.WellFormed

/-! ## The problems of a pass -/

namespace NestedBlock

variable {nested : NestedBlock} {pass : PlanPass} {configured : Value}

theorem complete_null_diagnostics (nested : NestedBlock) (path : Path) :
    (nested.complete pass path configured .null).diagnostics = [] := by
  rcases nested with ⟨⟨attributes, blocks, description⟩, mode, _, _⟩
  cases mode <;> rfl

theorem complete_single (single : nested.mode = .single) (path : Path) (planned : Value) :
    nested.complete pass path configured planned =
      nested.block.complete pass path configured planned := by
  unfold complete
  rw [single]

private theorem elements_diagnostics (block : Block) (path : Path) (elements : List Value) :
    (Completion.sequence (elements.zipIdx.map fun (element, i) =>
      block.complete pass (path.atIndex i) (configured.elementOrNull i) element)).diagnostics =
      (elements.mapIdx fun i element =>
        (block.complete pass (path.atIndex i) (configured.elementOrNull i)
          element).diagnostics).flatten := by
  rw [List.mapIdx_eq_zipIdx_map, Completion.sequence, List.flatMap_map]
  rfl

theorem complete_list_diagnostics (repeated : nested.mode ≠ .single) (path : Path)
    (elements : List Value) :
    (nested.complete pass path configured (.list elements)).diagnostics =
      (elements.mapIdx fun i element =>
        (nested.block.complete pass (path.atIndex i) (configured.elementOrNull i)
          element).diagnostics).flatten := by
  rcases nested with ⟨block, mode, _, _⟩
  cases mode with
  | single => exact absurd rfl repeated
  | _ => exact elements_diagnostics block path elements

theorem complete_set_diagnostics (repeated : nested.mode ≠ .single) (path : Path)
    (elements : List Value) :
    (nested.complete pass path configured (.set elements)).diagnostics =
      (elements.mapIdx fun i element =>
        (nested.block.complete pass (path.atIndex i) (configured.elementOrNull i)
          element).diagnostics).flatten := by
  rcases nested with ⟨block, mode, _, _⟩
  cases mode with
  | single => exact absurd rfl repeated
  | _ => exact elements_diagnostics block path elements

theorem complete_map_diagnostics (repeated : nested.mode ≠ .single) (path : Path)
    (entries : List (String × Value)) :
    (nested.complete pass path configured (.map entries)).diagnostics =
      entries.flatMap fun entry =>
        (nested.block.complete pass (path.atKey entry.1) (configured.entryOrNull entry.1)
          entry.2).diagnostics := by
  rcases nested with ⟨block, mode, _, _⟩
  cases mode with
  | single => exact absurd rfl repeated
  | _ => exact List.flatMap_map ..

end NestedBlock

namespace Block

variable {pass : PlanPass} {path : Path} {config : Value}

/-- Whether a default is valid does not depend on what is planned. -/
theorem completeAttributes_diagnostics_eq (attributes : List (String × Attribute))
    (planned planned' : List (String × Value)) :
    (completeAttributes pass path config attributes planned).diagnostics =
      (completeAttributes pass path config attributes planned').diagnostics := by
  induction attributes generalizing planned planned' with
  | nil => rfl
  | cons entry rest inductionHypothesis =>
      rcases entry with ⟨name, attr⟩
      rw [completeAttributes, completeAttributes]
      split
      · exact inductionHypothesis _ _
      · exact inductionHypothesis _ _
      · exact congrArg (_ :: ·) (inductionHypothesis _ _)

/-- The problems of nested blocks are those of each block in turn. -/
theorem completeBlocks_diagnostics_eq {blocks : List (String × NestedBlock)}
    (nodup : (Entries.keys blocks).Nodup) (planned : List (String × Value)) :
    (completeBlocks pass blocks path config planned).diagnostics =
      blocks.flatMap fun entry =>
        (entry.2.complete pass (path.atName entry.1) (config.attributeNamed entry.1)
          ((Value.object planned).attributeNamed entry.1)).diagnostics := by
  induction blocks generalizing planned with
  | nil => rfl
  | cons entry rest inductionHypothesis =>
      rcases entry with ⟨name, nested⟩
      rcases List.nodup_cons.mp nodup with ⟨fresh, restNodup⟩
      rw [List.flatMap_cons, Value.attributeNamed_object]
      cases present : Entries.find? name planned with
      | none =>
          rw [completeBlocks_cons_of_none present, inductionHypothesis restNodup]
          exact congrArg (· ++ _) (nested.complete_null_diagnostics _).symm
      | some value =>
          rw [completeBlocks_cons_of_some present]
          refine congrArg (_ ++ ·) ((inductionHypothesis restNodup _).trans ?_)
          -- What is written for this block is not under the name of a later one.
          refine List.flatMap_congr fun other member => ?_
          have later : other.1 ∈ Entries.keys rest := List.mem_map_of_mem member
          have different : other.1 ≠ name := ne_of_mem_of_not_mem later fresh
          rw [Value.attributeNamed_object, Value.attributeNamed_object,
            Entries.find?_insert_of_ne different]

/-- The problems of an object are those of its attributes and of its nested blocks. -/
theorem WellFormed.complete_object_diagnostics {block : Block} (wellFormed : block.WellFormed)
    (planned : List (String × Value)) :
    (block.complete pass path config (.object planned)).diagnostics =
      (completeAttributes pass path config block.attributes planned).diagnostics ++
        block.blocks.flatMap fun entry =>
          (entry.2.complete pass (path.atName entry.1) (config.attributeNamed entry.1)
            ((Value.object planned).attributeNamed entry.1)).diagnostics := by
  have split : (block.complete pass path config (.object planned)).diagnostics =
      (completeAttributes pass path config block.attributes planned).diagnostics ++
        (completeBlocks pass block.blocks path config (completeAttributes pass path config
          block.attributes planned).result).diagnostics := by
    cases block
    rfl
  rw [split, completeBlocks_diagnostics_eq wellFormed.blocksNodup]
  refine congrArg (_ ++ ·) (List.flatMap_congr fun entry member => ?_)
  have found := Entries.find?_of_mem wellFormed.blocksNodup member
  rw [Value.attributeNamed_object, Value.attributeNamed_object,
    find?_completeAttributes_of_none (wellFormed.find?_attributes found)]

end Block

/-- The problems of occurrences do not depend on what has been filled in when this is so for each
of them. -/
private theorem NestedBlock.complete_fill_diagnostics {nested : NestedBlock} {pass other : PlanPass}
    (inner : ∀ path configured planned, Value.HasType nested.block.valueType planned →
      (nested.block.complete pass path configured
        (nested.block.fill other configured planned)).diagnostics =
          (nested.block.complete pass path configured planned).diagnostics)
    {configured planned : Value} (typed : Value.HasType nested.valueType planned) (path : Path) :
    (nested.complete pass path configured (nested.fill other configured planned)).diagnostics =
      (nested.complete pass path configured planned).diagnostics := by
  cases occurrences_of_hasType typed with
  | single mode typed =>
      rw [complete_single mode, complete_single mode, fill_single mode]
      exact inner _ _ _ typed
  | null => rw [fill_null]
  | unknown => rw [fill_unknown]
  | list mode each =>
      have repeated : nested.mode ≠ .single := by simp [mode]
      rw [fill_list repeated, complete_list_diagnostics repeated,
        complete_list_diagnostics repeated]
      refine congrArg List.flatten (List.ext_getElem (by simp) fun i _ bound => ?_)
      rw [List.length_mapIdx] at bound
      simp only [List.getElem_mapIdx]
      exact inner _ _ _ (each _ (List.getElem_mem bound))
  | set mode each =>
      have repeated : nested.mode ≠ .single := by simp [mode]
      rw [fill_set repeated, complete_set_diagnostics repeated,
        complete_set_diagnostics repeated]
      refine congrArg List.flatten (List.ext_getElem (by simp) fun i _ bound => ?_)
      rw [List.length_mapIdx] at bound
      simp only [List.getElem_mapIdx]
      exact inner _ _ _ (each _ (List.getElem_mem bound))
  | map mode each =>
      have repeated : nested.mode ≠ .single := by simp [mode]
      rw [fill_map repeated, complete_map_diagnostics repeated, complete_map_diagnostics repeated,
        List.flatMap_map]
      exact List.flatMap_congr fun entry member => inner _ _ _ (each entry member)

/-- A pass reports the same problems before and after values have been filled in. -/
theorem Block.WellFormed.complete_fill_diagnostics {block : Block} (wellFormed : block.WellFormed)
    {pass other : PlanPass} {config planned : Value}
    (typed : Value.HasType block.valueType planned) (path : Path) :
    (block.complete pass path config (block.fill other config planned)).diagnostics =
      (block.complete pass path config planned).diagnostics := by
  induction block, wellFormed using WellFormed.induct generalizing config planned path with
  | step block wellFormed inductionHypothesis =>
      rcases cases_of_hasType typed with rfl | rfl | ⟨entries, rfl, covers⟩
      · rw [fill_null]
      · rw [fill_unknown]
      · rw [fill_object, wellFormed.complete_object_diagnostics,
          wellFormed.complete_object_diagnostics,
          completeAttributes_diagnostics_eq block.attributes _ entries]
        refine congrArg (_ ++ ·) (List.flatMap_congr fun entry member => ?_)
        have found := Entries.find?_of_mem wellFormed.blocksNodup member
        rw [wellFormed.nested_filled covers found]
        refine NestedBlock.complete_fill_diagnostics (fun path configured planned typed => ?_)
          (wellFormed.hasType_nested typed found) _
        exact inductionHypothesis entry member typed path

end ProviderKit
