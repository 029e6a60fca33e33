import ProviderKit.Proofs.Planning.Completion

/-!
# The gaps of a configuration

A pass reads a configuration in one way only: it asks whether a value is null.  A gap is a null
under an attribute that a pass can fill.  Two configurations with the same gaps, counterpart by
counterpart, therefore complete every planned value alike.  The converse holds as well: where
the gaps differ, some planned value is completed differently.  It is null everywhere except on
the way to the gap.
-/

namespace ProviderKit

/-! ## Attributes -/

namespace Attribute

/-- What the passes put in place of a gap, if the attribute can be filled at all. -/
def filler? (attr : Attribute) : Option Value :=
  match attr.defaultValue with
  | some document => (Value.ofJson attr.type document).toOption
  | none => if attr.flags.computed then some .unknown else none

/-- The planned value of an attribute after both passes. -/
def completed (attr : Attribute) (configured planned : Value) : Value :=
  attr.filled .unknowns configured (attr.filled .defaults configured planned)

variable {attr : Attribute} {configured configured' : Value}

/-- Every pass leaves a configured attribute alone. -/
theorem filled_of_configured (present : configured.isNull = false) (pass : PlanPass)
    (planned : Value) : attr.filled pass configured planned = planned := by
  unfold filled filling
  rw [if_neg (Bool.eq_false_iff.mp present)]

/-- At a gap one of the passes puts the filler, if there is one, and the other one nothing. -/
theorem filled_of_gap (gap : configured.isNull = true) (pass : PlanPass) (planned : Value) :
    attr.filled pass configured planned =
      match attr.defaultValue, pass with
      | some _, .defaults => attr.filler?.getD planned
      | none, .unknowns => attr.filler?.getD planned
      | _, _ => planned := by
  unfold filled filling filler?
  rw [if_pos gap]
  cases default : attr.defaultValue with
  | some document =>
      cases pass with
      | defaults =>
          cases decoded : Value.ofJson attr.type document with
          | ok value => simp [decoded, Except.toOption]
          | error problem => simp [decoded, Except.toOption]
      | unknowns => rfl
  | none =>
      cases pass with
      | defaults => rfl
      | unknowns => cases attr.flags.computed <;> simp

/-- An attribute without a filler is left alone. -/
theorem filled_of_unfillable (unfillable : attr.filler? = none) (pass : PlanPass)
    (planned : Value) : attr.filled pass configured planned = planned := by
  cases gap : configured.isNull with
  | false => exact filled_of_configured gap pass planned
  | true =>
      rw [filled_of_gap gap, unfillable]
      cases attr.defaultValue <;> cases pass <;> rfl

/-- A configured value only matters for whether it is null, and not even for that when the
attribute cannot be filled. -/
theorem filled_congr (same : attr.filler?.isSome = true → configured.isNull = configured'.isNull)
    (pass : PlanPass) (planned : Value) :
    attr.filled pass configured planned = attr.filled pass configured' planned := by
  cases fillable : attr.filler? with
  | none => rw [filled_of_unfillable fillable, filled_of_unfillable fillable]
  | some value =>
      unfold filled filling
      rw [same (fillable ▸ rfl)]

/-- Both passes together leave a configured attribute alone. -/
theorem completed_of_configured (present : configured.isNull = false) (planned : Value) :
    attr.completed configured planned = planned := by
  unfold completed
  rw [filled_of_configured present, filled_of_configured present]

/-- Both passes together replace what is planned at a gap by the filler. -/
theorem completed_of_gap {value : Value} (fillable : attr.filler? = some value)
    (gap : configured.isNull = true) (planned : Value) :
    attr.completed configured planned = value := by
  unfold completed
  rw [filled_of_gap gap, filled_of_gap gap, fillable]
  cases attr.defaultValue <;> rfl

theorem completed_of_unfillable (unfillable : attr.filler? = none) (planned : Value) :
    attr.completed configured planned = planned := by
  unfold completed
  rw [filled_of_unfillable unfillable, filled_of_unfillable unfillable]

end Attribute

/-! ## Both passes -/

/-- The planned value of a block after both passes. -/
def Block.completed (block : Block) (config planned : Value) : Value :=
  block.fill .unknowns config (block.fill .defaults config planned)

def NestedBlock.completed (nested : NestedBlock) (configured planned : Value) : Value :=
  nested.fill .unknowns configured (nested.fill .defaults configured planned)

namespace Block

variable {block : Block} {config : Value} {planned : List (String × Value)} {name : String}

theorem completed_null (block : Block) (config : Value) : block.completed config .null = .null := by
  rw [completed, fill_null, fill_null]

theorem completed_unknown (block : Block) (config : Value) :
    block.completed config .unknown = .unknown := by
  rw [completed, fill_unknown, fill_unknown]

theorem completed_object (block : Block) (config : Value) (planned : List (String × Value)) :
    block.completed config (.object planned) =
      .object (block.filledEntries .unknowns config
        (block.filledEntries .defaults config planned)) := by
  rw [completed, fill_object, fill_object]

namespace WellFormed

/-- An attribute of a completed object is completed. -/
theorem attribute_completed (wellFormed : block.WellFormed) (covers : block.Covers planned)
    {attr : Attribute} (found : Entries.find? name block.attributes = some attr) :
    (block.completed config (.object planned)).attributeNamed name =
      attr.completed (config.attributeNamed name) ((Value.object planned).attributeNamed name) := by
  rw [completed_object, wellFormed.attribute_filled (wellFormed.covers_filledEntries covers) found,
    wellFormed.attribute_filled covers found]
  rfl

/-- The occurrences of a nested block in a completed object are completed. -/
theorem nested_completed (wellFormed : block.WellFormed) (covers : block.Covers planned)
    {nested : NestedBlock} (found : Entries.find? name block.blocks = some nested) :
    (block.completed config (.object planned)).attributeNamed name =
      nested.completed (config.attributeNamed name)
        ((Value.object planned).attributeNamed name) := by
  rw [completed_object, wellFormed.nested_filled (wellFormed.covers_filledEntries covers) found,
    wellFormed.nested_filled covers found]
  rfl

end WellFormed
end Block

namespace NestedBlock

variable {nested : NestedBlock} {configured : Value}

theorem completed_single (single : nested.mode = .single) (configured planned : Value) :
    nested.completed configured planned = nested.block.completed configured planned := by
  rw [completed, fill_single single, fill_single single]
  rfl

theorem completed_null (nested : NestedBlock) (configured : Value) :
    nested.completed configured .null = .null := by
  rw [completed, fill_null, fill_null]

theorem completed_unknown (nested : NestedBlock) (configured : Value) :
    nested.completed configured .unknown = .unknown := by
  rw [completed, fill_unknown, fill_unknown]

theorem completed_list (repeated : nested.mode ≠ .single) (elements : List Value) :
    nested.completed configured (.list elements) = .list (elements.mapIdx fun i element =>
      nested.block.completed (configured.elementOrNull i) element) := by
  rw [completed, fill_list repeated, fill_list repeated, List.mapIdx_mapIdx]
  rfl

theorem completed_set (repeated : nested.mode ≠ .single) (elements : List Value) :
    nested.completed configured (.set elements) = .set (elements.mapIdx fun i element =>
      nested.block.completed (configured.elementOrNull i) element) := by
  rw [completed, fill_set repeated, fill_set repeated, List.mapIdx_mapIdx]
  rfl

theorem completed_map (repeated : nested.mode ≠ .single) (entries : List (String × Value)) :
    nested.completed configured (.map entries) = .map (entries.map fun entry =>
      (entry.1, nested.block.completed (configured.entryOrNull entry.1) entry.2)) := by
  rw [completed, fill_map repeated, fill_map repeated, List.map_map]
  rfl

end NestedBlock

/-! ## Equal gaps -/

namespace Block

/-- Two configurations have null under the same fillable attributes.  Occurrences of a nested
block are matched as the passes match them with the planned ones: by position in lists and
sets, and by key in maps. -/
inductive SameGaps : Block → Value → Value → Prop
  | intro {block : Block} {config config' : Value}
      (attributes : ∀ name attr, Entries.find? name block.attributes = some attr →
        attr.filler?.isSome = true →
          (config.attributeNamed name).isNull = (config'.attributeNamed name).isNull)
      (single : ∀ name nested, Entries.find? name block.blocks = some nested →
        nested.mode = .single →
          SameGaps nested.block (config.attributeNamed name) (config'.attributeNamed name))
      (elements : ∀ name nested, Entries.find? name block.blocks = some nested →
        nested.mode = .list ∨ nested.mode = .set → ∀ i,
          SameGaps nested.block ((config.attributeNamed name).elementOrNull i)
            ((config'.attributeNamed name).elementOrNull i))
      (entries : ∀ name nested, Entries.find? name block.blocks = some nested →
        nested.mode = .map → ∀ key,
          SameGaps nested.block ((config.attributeNamed name).entryOrNull key)
            ((config'.attributeNamed name).entryOrNull key)) : SameGaps block config config'

private theorem nested_fill_congr {nested : NestedBlock} {configured configured' planned : Value}
    (pass : PlanPass) (typed : Value.HasType nested.valueType planned)
    (single : nested.mode = .single → ∀ planned, Value.HasType nested.block.valueType planned →
      nested.block.fill pass configured planned = nested.block.fill pass configured' planned)
    (elements : nested.mode = .list ∨ nested.mode = .set → ∀ i planned,
      Value.HasType nested.block.valueType planned →
        nested.block.fill pass (configured.elementOrNull i) planned =
          nested.block.fill pass (configured'.elementOrNull i) planned)
    (entries : nested.mode = .map → ∀ key planned,
      Value.HasType nested.block.valueType planned →
        nested.block.fill pass (configured.entryOrNull key) planned =
          nested.block.fill pass (configured'.entryOrNull key) planned) :
    nested.fill pass configured planned = nested.fill pass configured' planned := by
  cases NestedBlock.occurrences_of_hasType typed with
  | single mode typed =>
      rw [NestedBlock.fill_single mode, NestedBlock.fill_single mode]
      exact single mode planned typed
  | null => rw [NestedBlock.fill_null, NestedBlock.fill_null]
  | unknown => rw [NestedBlock.fill_unknown, NestedBlock.fill_unknown]
  | list mode each =>
      rw [NestedBlock.fill_list (by simp [mode]), NestedBlock.fill_list (by simp [mode])]
      refine congrArg Value.list (List.mapIdx_eq_mapIdx_iff.mpr fun i bound => ?_)
      exact elements (.inl mode) i _ (each _ (List.getElem_mem bound))
  | set mode each =>
      rw [NestedBlock.fill_set (by simp [mode]), NestedBlock.fill_set (by simp [mode])]
      refine congrArg Value.set (List.mapIdx_eq_mapIdx_iff.mpr fun i bound => ?_)
      exact elements (.inr mode) i _ (each _ (List.getElem_mem bound))
  | map mode each =>
      rw [NestedBlock.fill_map (by simp [mode]), NestedBlock.fill_map (by simp [mode])]
      refine congrArg Value.map (List.map_congr_left fun entry member => ?_)
      rw [entries mode entry.1 entry.2 (each entry member)]

/-- Configurations with the same gaps complete a planned value alike. -/
theorem SameGaps.fill_eq {block : Block} {config config' planned : Value}
    (same : block.SameGaps config config') (wellFormed : block.WellFormed) (pass : PlanPass)
    (typed : Value.HasType block.valueType planned) :
    block.fill pass config planned = block.fill pass config' planned := by
  induction same generalizing planned with
  | @intro block config config' attributes _ _ _ single elements entries =>
      rcases cases_of_hasType typed with rfl | rfl | ⟨members, rfl, covers⟩
      · rw [fill_null, fill_null]
      · rw [fill_unknown, fill_unknown]
      · rw [fill_object, fill_object]
        refine congrArg Value.object (wellFormed.object_ext (wellFormed.covers_filledEntries covers)
          (wellFormed.covers_filledEntries covers) ?_ ?_)
        · intro name attr found
          rw [wellFormed.attribute_filled covers found, wellFormed.attribute_filled covers found]
          exact Attribute.filled_congr (attributes name attr found) pass _
        · intro name nested found
          have inner := wellFormed.nested found
          rw [wellFormed.nested_filled covers found, wellFormed.nested_filled covers found]
          refine nested_fill_congr pass (wellFormed.hasType_nested typed found) ?_ ?_ ?_
          · exact fun mode _ typed => single name nested found mode inner typed
          · exact fun mode i _ typed => elements name nested found mode i inner typed
          · exact fun mode key _ typed => entries name nested found mode key inner typed

end Block
end ProviderKit
