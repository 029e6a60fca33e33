import ProviderKit.Planning.Completion
import ProviderKit.Proofs.Schema.WellFormed

/-!
# What a pass does to a planned object

A pass over a planned object keeps its members and decides about each of them alone: an
attribute is filled or kept, and the occurrences of a nested block are completed one by
one.  These facts say everything about a completed object, and what follows about plans is
derived from them.  The place of an object only appears in the problems that are reported,
so `Block.fill` and `NestedBlock.fill` give the completed value without it.
-/

namespace ProviderKit

namespace Attribute

/-- The planned value of an attribute after a pass. -/
def filled (attr : Attribute) (pass : PlanPass) (configured planned : Value) : Value :=
  match attr.filling pass configured with
  | some (.ok value) => value
  | _ => planned

end Attribute

namespace NestedBlock

def complete (nested : NestedBlock) (pass : PlanPass) (path : Path)
    (configured planned : Value) : Completion Value :=
  let items (elements : List Value) : Completion (List Value) :=
    .sequence (elements.zipIdx.map fun (element, i) =>
      nested.block.complete pass (path.atIndex i) (configured.elementOrNull i) element)
  match nested.mode, planned with
  | .single, planned => nested.block.complete pass path configured planned
  | _, .list elements => (items elements).map .list
  | _, .set elements => (items elements).map .set
  | _, .map entries =>
    (Completion.sequence (entries.map fun (key, entry) =>
      (nested.block.complete pass (path.atKey key) (configured.entryOrNull key) entry).map
        fun completed => (key, completed))).map .map
  | _, other => .unchanged other

end NestedBlock

namespace Block

variable {pass : PlanPass} {path : Path} {config : Value} {name : String}

/-! ## The traversal of the members -/

theorem completeBlocks_cons_of_none {planned : List (String × Value)}
    (absent : Entries.find? name planned = none) (nested : NestedBlock)
    (rest : List (String × NestedBlock)) :
    completeBlocks pass ((name, nested) :: rest) path config planned =
      completeBlocks pass rest path config planned := by
  cases nested
  rw [completeBlocks, absent]

theorem completeBlocks_cons_of_some {planned : List (String × Value)} {value : Value}
    (present : Entries.find? name planned = some value) (nested : NestedBlock)
    (rest : List (String × NestedBlock)) :
    completeBlocks pass ((name, nested) :: rest) path config planned =
      let completion := nested.complete pass (path.atName name) (config.attributeNamed name) value
      let completed := completeBlocks pass rest path config
        (Entries.insert name completion.result planned)
      ⟨completed.result, completion.diagnostics ++ completed.diagnostics⟩ := by
  cases nested
  rw [completeBlocks, present]
  rfl

/-- Only the names of nested blocks are written. -/
theorem find?_completeBlocks_of_none {blocks : List (String × NestedBlock)}
    (other : Entries.find? name blocks = none) (planned : List (String × Value)) :
    Entries.find? name (completeBlocks pass blocks path config planned).result =
      Entries.find? name planned := by
  induction blocks generalizing planned with
  | nil => rfl
  | cons entry rest inductionHypothesis =>
      rcases entry with ⟨key, nested⟩
      have different : key ≠ name := by
        rintro rfl
        rw [Entries.find?_cons_self] at other
        cases other
      rw [Entries.find?_cons_of_ne different] at other
      cases present : Entries.find? key planned with
      | none =>
          rw [completeBlocks_cons_of_none present]
          exact inductionHypothesis other planned
      | some value =>
          rw [completeBlocks_cons_of_some present]
          exact (inductionHypothesis other _).trans
            (Entries.find?_insert_of_ne (Ne.symm different) _ _)

/-- Under the name of a nested block its occurrences are completed. -/
theorem find?_completeBlocks_of_some {blocks : List (String × NestedBlock)}
    (nodup : (Entries.keys blocks).Nodup) {nested : NestedBlock}
    (found : Entries.find? name blocks = some nested) (planned : List (String × Value)) :
    Entries.find? name (completeBlocks pass blocks path config planned).result =
      (Entries.find? name planned).map fun value =>
        (nested.complete pass (path.atName name) (config.attributeNamed name) value).result := by
  induction blocks generalizing planned with
  | nil => cases found
  | cons entry rest inductionHypothesis =>
      rcases entry with ⟨key, first⟩
      rcases List.nodup_cons.mp nodup with ⟨fresh, restNodup⟩
      by_cases same : key = name
      · subst same
        rw [Entries.find?_cons_self] at found
        cases found
        have further : Entries.find? key rest = none := Entries.find?_eq_none_iff.mpr fresh
        cases present : Entries.find? key planned with
        | none =>
            rw [completeBlocks_cons_of_none present, find?_completeBlocks_of_none further, present]
            rfl
        | some value =>
            rw [completeBlocks_cons_of_some present]
            exact (find?_completeBlocks_of_none further _).trans (Entries.find?_insert_self ..)
      · rw [Entries.find?_cons_of_ne same] at found
        cases present : Entries.find? key planned with
        | none =>
            rw [completeBlocks_cons_of_none present]
            exact inductionHypothesis restNodup found planned
        | some value =>
            rw [completeBlocks_cons_of_some present]
            apply (inductionHypothesis restNodup found _).trans
            rw [Entries.find?_insert_of_ne (Ne.symm same)]

theorem keys_completeBlocks {planned : List (String × Value)} (sorted : Entries.Sorted planned)
    (blocks : List (String × NestedBlock)) :
    Entries.keys (completeBlocks pass blocks path config planned).result =
      Entries.keys planned := by
  induction blocks generalizing planned with
  | nil => rfl
  | cons entry rest inductionHypothesis =>
      rcases entry with ⟨key, nested⟩
      cases present : Entries.find? key planned with
      | none =>
          rw [completeBlocks_cons_of_none present]
          exact inductionHypothesis sorted
      | some value =>
          rw [completeBlocks_cons_of_some present]
          apply (inductionHypothesis (Entries.Sorted.insert sorted _ _)).trans
          exact Entries.keys_insert_of_mem sorted (Entries.find?_isSome_iff.mp (present ▸ rfl)) _

/-- The result of a pass over the attributes, one attribute at a time. -/
theorem completeAttributes_cons_result (attr : Attribute) (rest : List (String × Attribute))
    (planned : List (String × Value)) :
    (completeAttributes pass path config ((name, attr) :: rest) planned).result =
      (completeAttributes pass path config rest
        (match attr.filling pass (config.attributeNamed name) with
          | some (.ok value) => Entries.insert name value planned
          | _ => planned)).result := by
  rw [completeAttributes]
  rcases attr.filling pass (config.attributeNamed name) with _ | _ | _ <;> rfl

theorem find?_completeAttributes_of_none {attributes : List (String × Attribute)}
    (other : Entries.find? name attributes = none) (planned : List (String × Value)) :
    Entries.find? name (completeAttributes pass path config attributes planned).result =
      Entries.find? name planned := by
  induction attributes generalizing planned with
  | nil => rfl
  | cons entry rest inductionHypothesis =>
      rcases entry with ⟨key, attr⟩
      have different : key ≠ name := by
        rintro rfl
        rw [Entries.find?_cons_self] at other
        cases other
      rw [Entries.find?_cons_of_ne different] at other
      rw [completeAttributes_cons_result, inductionHypothesis other]
      split
      · exact Entries.find?_insert_of_ne (Ne.symm different) _ _
      · rfl

/-- An attribute that is present is filled or kept. -/
theorem find?_completeAttributes_of_some {attributes : List (String × Attribute)}
    (nodup : (Entries.keys attributes).Nodup) {attr : Attribute}
    (found : Entries.find? name attributes = some attr) {planned : List (String × Value)}
    {value : Value} (present : Entries.find? name planned = some value) :
    Entries.find? name (completeAttributes pass path config attributes planned).result =
      some (attr.filled pass (config.attributeNamed name) value) := by
  induction attributes generalizing planned with
  | nil => cases found
  | cons entry rest inductionHypothesis =>
      rcases entry with ⟨key, first⟩
      rcases List.nodup_cons.mp nodup with ⟨fresh, restNodup⟩
      rw [completeAttributes_cons_result]
      by_cases same : key = name
      · subst same
        rw [Entries.find?_cons_self] at found
        cases found
        rw [find?_completeAttributes_of_none (Entries.find?_eq_none_iff.mpr fresh)]
        unfold Attribute.filled
        split
        · exact Entries.find?_insert_self ..
        · exact present
      · rw [Entries.find?_cons_of_ne same] at found
        apply inductionHypothesis restNodup found
        split
        · rwa [Entries.find?_insert_of_ne (Ne.symm same)]
        · exact present

theorem keys_completeAttributes {attributes : List (String × Attribute)}
    {planned : List (String × Value)} (sorted : Entries.Sorted planned)
    (present : ∀ name ∈ Entries.keys attributes, name ∈ Entries.keys planned) :
    Entries.keys (completeAttributes pass path config attributes planned).result =
      Entries.keys planned := by
  induction attributes generalizing planned with
  | nil => rfl
  | cons entry rest inductionHypothesis =>
      rcases entry with ⟨key, attr⟩
      rcases List.forall_mem_cons.mp present with ⟨here, further⟩
      rw [completeAttributes_cons_result]
      split
      · next value _ =>
        have kept := Entries.keys_insert_of_mem sorted here value
        rw [inductionHypothesis (Entries.Sorted.insert sorted _ _) (kept ▸ further), kept]
      · exact inductionHypothesis sorted further

/-! ## Filled values -/

/-- The value of a block after a pass. -/
def fill (block : Block) (pass : PlanPass) (config planned : Value) : Value :=
  (block.complete pass [] config planned).result

end Block

def NestedBlock.fill (nested : NestedBlock) (pass : PlanPass) (configured planned : Value) :
    Value :=
  (nested.complete pass [] configured planned).result

namespace NestedBlock

variable {nested : NestedBlock} {pass : PlanPass} {configured : Value}

/-- The result for occurrences does not depend on their place when the result for one
occurrence does not. -/
private theorem complete_result_congr
    (inner : ∀ path path' configured planned,
      (nested.block.complete pass path configured planned).result =
        (nested.block.complete pass path' configured planned).result)
    (path path' : Path) (configured planned : Value) :
    (nested.complete pass path configured planned).result =
      (nested.complete pass path' configured planned).result := by
  rcases nested with ⟨block, mode, _, _⟩
  have items : ∀ elements : List Value,
      ((elements.zipIdx.map fun (element, i) =>
        block.complete pass (path.atIndex i) (configured.elementOrNull i) element).map
          Completion.result) =
      ((elements.zipIdx.map fun (element, i) =>
        block.complete pass (path'.atIndex i) (configured.elementOrNull i) element).map
          Completion.result) := by
    intro elements
    rw [List.map_map, List.map_map]
    exact List.map_congr_left fun _ _ => inner _ _ _ _
  cases mode with
  | single => exact inner path path' configured planned
  | _ =>
      cases planned with
      | list elements => exact congrArg Value.list (items elements)
      | set elements => exact congrArg Value.set (items elements)
      | map entries =>
          apply congrArg Value.map
          simp only [Completion.sequence, List.map_map]
          exact List.map_congr_left fun entry _ => congrArg (Prod.mk entry.1) (inner _ _ _ _)
      | _ => rfl

end NestedBlock

namespace Block

variable {pass : PlanPass} {path : Path} {config : Value} {name : String}

private theorem completeAttributes_result_congr (path path' : Path)
    (attributes : List (String × Attribute)) (planned : List (String × Value)) :
    (completeAttributes pass path config attributes planned).result =
      (completeAttributes pass path' config attributes planned).result := by
  induction attributes generalizing planned with
  | nil => rfl
  | cons entry rest inductionHypothesis =>
      rw [completeAttributes_cons_result, completeAttributes_cons_result, inductionHypothesis]

private theorem completeBlocks_result_congr {blocks : List (String × NestedBlock)}
    (inner : ∀ entry ∈ blocks, ∀ path path' configured planned,
      (entry.2.block.complete pass path configured planned).result =
        (entry.2.block.complete pass path' configured planned).result)
    (path path' : Path) (planned : List (String × Value)) :
    (completeBlocks pass blocks path config planned).result =
      (completeBlocks pass blocks path' config planned).result := by
  induction blocks generalizing planned with
  | nil => rfl
  | cons entry rest inductionHypothesis =>
      rcases entry with ⟨key, nested⟩
      rcases List.forall_mem_cons.mp inner with ⟨here, further⟩
      cases present : Entries.find? key planned with
      | none =>
          rw [completeBlocks_cons_of_none present, completeBlocks_cons_of_none present]
          exact inductionHypothesis further planned
      | some value =>
          rw [completeBlocks_cons_of_some present, completeBlocks_cons_of_some present]
          simp only
          rw [NestedBlock.complete_result_congr here _ (path'.atName key)]
          exact inductionHypothesis further _

/-- The completed value does not depend on its place. -/
theorem complete_result (block : Block) (pass : PlanPass) (path : Path) (config planned : Value) :
    (block.complete pass path config planned).result = block.fill pass config planned := by
  suffices anywhere : ∀ path path' config planned,
      (block.complete pass path config planned).result =
        (block.complete pass path' config planned).result from anywhere path [] config planned
  induction block using Block.induct with
  | step attributes blocks description inductionHypothesis =>
      intro path path' config planned
      cases planned with
      | object planned =>
          apply congrArg Value.object
          rw [completeAttributes_result_congr path path']
          exact completeBlocks_result_congr inductionHypothesis path path' _
      | _ => rfl

theorem nested_complete_result (nested : NestedBlock) (pass : PlanPass) (path : Path)
    (configured planned : Value) :
    (nested.complete pass path configured planned).result =
      nested.fill pass configured planned := by
  refine NestedBlock.complete_result_congr (fun path path' configured planned => ?_) path [] _ _
  rw [complete_result, complete_result]

def filledEntries (block : Block) (pass : PlanPass) (config : Value)
    (planned : List (String × Value)) : List (String × Value) :=
  (completeBlocks pass block.blocks [] config
    (completeAttributes pass [] config block.attributes planned).result).result

theorem fill_object (block : Block) (pass : PlanPass) (config : Value)
    (planned : List (String × Value)) :
    block.fill pass config (.object planned) =
      .object (block.filledEntries pass config planned) := by
  cases block
  rfl

theorem fill_null (block : Block) (pass : PlanPass) (config : Value) :
    block.fill pass config .null = .null := by
  cases block
  rfl

theorem fill_unknown (block : Block) (pass : PlanPass) (config : Value) :
    block.fill pass config .unknown = .unknown := by
  cases block
  rfl

theorem isNull_fill (block : Block) (pass : PlanPass) (config planned : Value) :
    (block.fill pass config planned).isNull = planned.isNull := by
  cases block
  cases planned <;> rfl

namespace WellFormed

variable {block : Block} {planned : List (String × Value)}

private theorem present_of_covers (wellFormed : block.WellFormed) (covers : block.Covers planned)
    {attr : Attribute} (found : Entries.find? name block.attributes = some attr) :
    ∃ value, Entries.find? name planned = some value := by
  apply Entries.exists_find?
  rw [show Entries.keys planned = _ from covers]
  exact Entries.find?_isSome_iff.mp (wellFormed.find?_memberTypes_attribute found ▸ rfl)

private theorem keys_completeAttributes (wellFormed : block.WellFormed)
    (covers : block.Covers planned) :
    Entries.keys (completeAttributes pass [] config block.attributes planned).result =
      Entries.keys planned := by
  refine Block.keys_completeAttributes ?_ fun name member => ?_
  · exact (Entries.sorted_congr covers).mpr wellFormed.memberTypes_sorted
  · rcases Entries.exists_find? member with ⟨attr, found⟩
    rcases wellFormed.present_of_covers covers found with ⟨value, present⟩
    exact Entries.find?_isSome_iff.mp (present ▸ rfl)

theorem covers_filledEntries (wellFormed : block.WellFormed) (covers : block.Covers planned) :
    block.Covers (block.filledEntries pass config planned) := by
  have filled : Entries.keys (completeAttributes pass [] config block.attributes planned).result =
      Entries.keys planned := wellFormed.keys_completeAttributes covers
  refine (keys_completeBlocks ?_ block.blocks).trans (filled.trans covers)
  exact (Entries.sorted_congr (filled.trans covers)).mpr wellFormed.memberTypes_sorted

/-- An attribute of a completed object is filled or kept. -/
theorem attribute_filled (wellFormed : block.WellFormed) (covers : block.Covers planned)
    {attr : Attribute} (found : Entries.find? name block.attributes = some attr) :
    (Value.object (block.filledEntries pass config planned)).attributeNamed name =
      attr.filled pass (config.attributeNamed name)
        ((Value.object planned).attributeNamed name) := by
  rcases wellFormed.present_of_covers covers found with ⟨value, present⟩
  unfold filledEntries
  rw [Value.attributeNamed_object, Value.attributeNamed_object,
    find?_completeBlocks_of_none (wellFormed.find?_blocks found),
    find?_completeAttributes_of_some wellFormed.attributesNodup found present, present]
  rfl

/-- The occurrences of a nested block in a completed object are completed. -/
theorem nested_filled (wellFormed : block.WellFormed) (covers : block.Covers planned)
    {nested : NestedBlock} (found : Entries.find? name block.blocks = some nested) :
    (Value.object (block.filledEntries pass config planned)).attributeNamed name =
      nested.fill pass (config.attributeNamed name)
        ((Value.object planned).attributeNamed name) := by
  have declared : name ∈ Entries.keys planned := by
    rw [show Entries.keys planned = _ from covers]
    exact Entries.find?_isSome_iff.mp (wellFormed.find?_memberTypes_nested found ▸ rfl)
  rcases Entries.exists_find? declared with ⟨value, present⟩
  unfold filledEntries
  rw [Value.attributeNamed_object, Value.attributeNamed_object,
    find?_completeBlocks_of_some wellFormed.blocksNodup found,
    find?_completeAttributes_of_none (wellFormed.find?_attributes found), present,
    ← nested_complete_result]
  rfl

end WellFormed
end Block

/-! ## The occurrences of a nested block -/

namespace NestedBlock

variable {nested : NestedBlock} {pass : PlanPass} {configured : Value}

theorem fill_single (single : nested.mode = .single) (planned : Value) :
    nested.fill pass configured planned = nested.block.fill pass configured planned := by
  unfold fill complete
  rw [single]
  rfl

private theorem elements_result (block : Block) (elements : List Value) :
    (elements.zipIdx.map fun (element, i) =>
      block.complete pass (Path.atIndex [] i) (configured.elementOrNull i) element).map
        Completion.result =
      elements.mapIdx fun i element => block.fill pass (configured.elementOrNull i) element := by
  rw [List.map_map, List.mapIdx_eq_zipIdx_map]
  exact List.map_congr_left fun _ _ => block.complete_result ..

theorem fill_list (repeated : nested.mode ≠ .single) (elements : List Value) :
    nested.fill pass configured (.list elements) =
      .list (elements.mapIdx fun i element =>
        nested.block.fill pass (configured.elementOrNull i) element) := by
  rcases nested with ⟨block, mode, _, _⟩
  cases mode with
  | single => exact absurd rfl repeated
  | _ => exact congrArg Value.list (elements_result block elements)

theorem fill_set (repeated : nested.mode ≠ .single) (elements : List Value) :
    nested.fill pass configured (.set elements) =
      .set (elements.mapIdx fun i element =>
        nested.block.fill pass (configured.elementOrNull i) element) := by
  rcases nested with ⟨block, mode, _, _⟩
  cases mode with
  | single => exact absurd rfl repeated
  | _ => exact congrArg Value.set (elements_result block elements)

theorem fill_map (repeated : nested.mode ≠ .single) (entries : List (String × Value)) :
    nested.fill pass configured (.map entries) =
      .map (entries.map fun entry =>
        (entry.1, nested.block.fill pass (configured.entryOrNull entry.1) entry.2)) := by
  have results : ∀ block : Block, ((entries.map fun (key, entry) =>
      (block.complete pass (Path.atKey [] key) (configured.entryOrNull key) entry).map
        fun completed => (key, completed)).map Completion.result) =
      entries.map fun entry =>
        (entry.1, block.fill pass (configured.entryOrNull entry.1) entry.2) := by
    intro block
    rw [List.map_map]
    exact List.map_congr_left fun entry _ => congrArg (Prod.mk entry.1) (block.complete_result ..)
  rcases nested with ⟨block, mode, _, _⟩
  cases mode with
  | single => exact absurd rfl repeated
  | _ => exact congrArg Value.map (results block)

theorem fill_null (nested : NestedBlock) : nested.fill pass configured .null = .null := by
  rcases nested with ⟨block, mode, _, _⟩
  cases mode with
  | single => exact block.fill_null pass configured
  | _ => rfl

theorem fill_unknown (nested : NestedBlock) : nested.fill pass configured .unknown = .unknown := by
  rcases nested with ⟨block, mode, _, _⟩
  cases mode with
  | single => exact block.fill_unknown pass configured
  | _ => rfl

end NestedBlock

/-! ## Types are kept -/

theorem Attribute.hasType_filled {attr : Attribute} {pass : PlanPass} {configured planned : Value}
    (typed : Value.HasType attr.type planned) :
    Value.HasType attr.type (attr.filled pass configured planned) := by
  unfold filled
  split
  · next value chosen =>
    unfold filling at chosen
    split at chosen
    · split at chosen
      · exact (Value.conforms_of_decodeAt (Option.some.inj chosen)).1
      · split at chosen
        · cases chosen
          exact .unknown _
        · cases chosen
      · cases chosen
    · cases chosen
  · exact typed

namespace Block

variable {pass : PlanPass}

private theorem hasType_nested_fill {nested : NestedBlock} {configured planned : Value}
    (inner : ∀ configured planned, Value.HasType nested.block.valueType planned →
      Value.HasType nested.block.valueType (nested.block.fill pass configured planned))
    (typed : Value.HasType nested.valueType planned) :
    Value.HasType nested.valueType (nested.fill pass configured planned) := by
  have elements : ∀ elements : List Value,
      (∀ element ∈ elements, Value.HasType nested.block.valueType element) →
        ∀ element ∈ elements.mapIdx fun i element =>
          nested.block.fill pass (configured.elementOrNull i) element,
          Value.HasType nested.block.valueType element := by
    intro elements each completed member
    rcases List.mem_mapIdx.mp member with ⟨i, bound, rfl⟩
    exact inner _ _ (each _ (List.getElem_mem bound))
  cases NestedBlock.occurrences_of_hasType typed with
  | single mode typed =>
      rw [NestedBlock.fill_single mode]
      exact NestedBlock.hasType_of_occurrences (.single mode (inner _ _ typed))
  | null =>
      rw [NestedBlock.fill_null]
      exact typed
  | unknown =>
      rw [NestedBlock.fill_unknown]
      exact typed
  | list mode each =>
      rw [NestedBlock.fill_list (by simp [mode])]
      exact NestedBlock.hasType_of_occurrences (.list mode (elements _ each))
  | set mode each =>
      rw [NestedBlock.fill_set (by simp [mode])]
      exact NestedBlock.hasType_of_occurrences (.set mode (elements _ each))
  | map mode each =>
      rw [NestedBlock.fill_map (by simp [mode])]
      refine NestedBlock.hasType_of_occurrences (.map mode (List.forall_mem_map.mpr ?_))
      exact fun entry member => inner _ _ (each entry member)

/-- A pass keeps the type of a planned value. -/
theorem WellFormed.hasType_fill {block : Block} (wellFormed : block.WellFormed) (config : Value)
    {planned : Value} (typed : Value.HasType block.valueType planned) :
    Value.HasType block.valueType (block.fill pass config planned) := by
  induction block, wellFormed using WellFormed.induct generalizing config planned with
  | step block wellFormed inductionHypothesis =>
      rcases cases_of_hasType typed with rfl | rfl | ⟨entries, rfl, covers⟩
      · rw [fill_null]
        exact typed
      · rw [fill_unknown]
        exact typed
      · rw [fill_object]
        refine wellFormed.hasType_object (wellFormed.covers_filledEntries covers) ?_ ?_
        · intro name attr found
          rw [wellFormed.attribute_filled covers found]
          exact Attribute.hasType_filled (wellFormed.hasType_attribute typed found)
        · intro name nested found
          rw [wellFormed.nested_filled covers found]
          refine hasType_nested_fill (fun configured planned => ?_)
            (wellFormed.hasType_nested typed found)
          exact inductionHypothesis _ (Entries.mem_of_find? found) configured

/-! ## Valid defaults leave no problems -/

private theorem completeAttributes_diagnostics {attributes : List (String × Attribute)}
    (known : ∀ entry ∈ attributes, entry.2.DefaultKnown) (path : Path) (config : Value)
    (planned : List (String × Value)) :
    (completeAttributes pass path config attributes planned).diagnostics = [] := by
  induction attributes generalizing planned with
  | nil => rfl
  | cons entry rest inductionHypothesis =>
      rcases entry with ⟨name, attr⟩
      rcases List.forall_mem_cons.mp known with ⟨here, further⟩
      rw [completeAttributes]
      split
      · exact inductionHypothesis further planned
      · exact inductionHypothesis further _
      · next error chosen =>
        unfold Attribute.filling at chosen
        split at chosen
        · split at chosen
          · next document default =>
            rcases here document default with ⟨value, decoded, _⟩
            rw [decoded] at chosen
            cases chosen
          · split at chosen <;> cases chosen
          · cases chosen
        · cases chosen

private theorem nested_complete_diagnostics {nested : NestedBlock}
    (inner : ∀ path configured planned,
      (nested.block.complete pass path configured planned).diagnostics = [])
    (path : Path) (configured planned : Value) :
    (nested.complete pass path configured planned).diagnostics = [] := by
  rcases nested with ⟨block, mode, _, _⟩
  cases mode with
  | single => exact inner path configured planned
  | _ =>
      cases planned with
      | list => exact List.flatMap_eq_nil_iff.mpr (List.forall_mem_map.mpr fun _ _ => inner _ _ _)
      | set => exact List.flatMap_eq_nil_iff.mpr (List.forall_mem_map.mpr fun _ _ => inner _ _ _)
      | map => exact List.flatMap_eq_nil_iff.mpr (List.forall_mem_map.mpr fun _ _ => inner _ _ _)
      | _ => rfl

private theorem completeBlocks_diagnostics {blocks : List (String × NestedBlock)}
    (inner : ∀ entry ∈ blocks, ∀ path configured planned,
      (entry.2.block.complete pass path configured planned).diagnostics = [])
    (path : Path) (config : Value) (planned : List (String × Value)) :
    (completeBlocks pass blocks path config planned).diagnostics = [] := by
  induction blocks generalizing planned with
  | nil => rfl
  | cons entry rest inductionHypothesis =>
      rcases entry with ⟨name, nested⟩
      rcases List.forall_mem_cons.mp inner with ⟨here, further⟩
      cases present : Entries.find? name planned with
      | none =>
          rw [completeBlocks_cons_of_none present]
          exact inductionHypothesis further planned
      | some value =>
          rw [completeBlocks_cons_of_some present]
          refine List.append_eq_nil_iff.mpr ⟨?_, inductionHypothesis further _⟩
          exact nested_complete_diagnostics here _ _ _

/-- When every default is valid, a pass reports nothing. -/
theorem DefaultsKnown.complete_diagnostics {block : Block} (known : block.DefaultsKnown)
    (path : Path) (config planned : Value) :
    (block.complete pass path config planned).diagnostics = [] := by
  induction known generalizing path config planned with
  | @intro block attributes _ inductionHypothesis =>
      cases block
      cases planned with
      | object planned =>
          refine List.append_eq_nil_iff.mpr ⟨completeAttributes_diagnostics attributes _ _ _, ?_⟩
          exact completeBlocks_diagnostics inductionHypothesis path config _
      | _ => rfl

end Block
end ProviderKit
