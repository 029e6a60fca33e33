import ProviderKit.Proofs.Planning.Gaps

/-!
# Planned values that tell gaps apart

Where two configurations differ in a gap, there is a planned value that the passes complete to
two different values.  It is null everywhere except on the way to the gap, and in a set the
occurrence on that way stands behind unknown elements, which may repeat.  At the gap it is null
or unknown, whichever the filler is not.
-/

namespace ProviderKit
namespace Value

/-- Neither value equals the other.  For sets with repeated elements the equality is not
symmetric, so both orders are asked for. -/
structure Apart (v w : Value) : Prop where
  left : v.same w = false
  right : w.same v = false

/-- An element behind a number of unknown ones. -/
def behindUnknown (i : Nat) (element : Value) : List Value :=
  List.replicate i unknown ++ [element]

variable {v w : Value}

theorem unknown_same (v : Value) : unknown.same v = v.isUnknown := by
  cases v <;> rfl

theorem not_apart_self (v : Value) : ¬ Apart v v :=
  fun apart => Bool.eq_false_iff.mp apart.left (same_refl v)

namespace Apart

theorem symm (apart : Apart v w) : Apart w v :=
  ⟨apart.right, apart.left⟩

/-- Values are apart when they disagree in an attribute. -/
theorem of_attributeNamed (name : String)
    (apart : Apart (v.attributeNamed name) (w.attributeNamed name)) : Apart v w := by
  constructor
  · refine Bool.eq_false_iff.mpr fun equal => ?_
    exact Bool.eq_false_iff.mp apart.left (attributeNamed_same equal name)
  · refine Bool.eq_false_iff.mpr fun equal => ?_
    exact Bool.eq_false_iff.mp apart.right (attributeNamed_same equal name)

private theorem list_not_same (different : v.same w = false) (i : Nat) :
    (list (behindUnknown i v)).same (list (behindUnknown i w)) = false := by
  refine Bool.eq_false_iff.mpr fun equal => Bool.eq_false_iff.mp different ?_
  have last := (List.forall₂_iff_get.mp (same_list_iff.mp equal)).2 i (by simp [behindUnknown])
    (by simp [behindUnknown])
  simpa [behindUnknown] using last

theorem list (apart : Apart v w) (i : Nat) :
    Apart (list (behindUnknown i v)) (list (behindUnknown i w)) :=
  ⟨list_not_same apart.left i, list_not_same apart.right i⟩

/-- The last element of the first set has no equal in the second one. -/
private theorem set_not_same (different : w.same v = false) (known : v.isUnknown = false)
    (i : Nat) : (set (behindUnknown i v)).same (set (behindUnknown i w)) = false := by
  refine Bool.eq_false_iff.mpr fun equal => ?_
  rcases (same_set_iff.mp equal).2 v (by simp [behindUnknown]) with ⟨other, member, found⟩
  rcases List.mem_append.mp member with before | last
  · rw [List.eq_of_mem_replicate before, unknown_same, known] at found
    cases found
  · rw [List.mem_singleton.mp last, different] at found
    cases found

theorem set (apart : Apart v w) (known : v.isUnknown = false) (known' : w.isUnknown = false)
    (i : Nat) : Apart (set (behindUnknown i v)) (set (behindUnknown i w)) :=
  ⟨set_not_same apart.right known i, set_not_same apart.left known' i⟩

private theorem map_not_same (different : v.same w = false) (key : String) :
    (map [(key, v)]).same (map [(key, w)]) = false := by
  refine Bool.eq_false_iff.mpr fun equal => Bool.eq_false_iff.mp different ?_
  exact (Entries.paired_cons_iff.mp (same_map_iff.mp equal)).2.1

theorem map (apart : Apart v w) (key : String) : Apart (map [(key, v)]) (map [(key, w)]) :=
  ⟨map_not_same apart.left key, map_not_same apart.right key⟩

end Apart

/-! ## Elements behind unknown ones -/

theorem mapIdx_behindUnknown {f : Nat → Value → Value} (keeps : ∀ j, f j unknown = unknown)
    (i : Nat) (element : Value) :
    (behindUnknown i element).mapIdx f = behindUnknown i (f i element) := by
  have before : (List.replicate i unknown).mapIdx f = List.replicate i unknown := by
    refine List.ext_getElem (by simp) fun j bound bound' => ?_
    rw [List.getElem_mapIdx, List.getElem_replicate, keeps]
  rw [behindUnknown, List.mapIdx_append, before]
  simp [behindUnknown]

theorem forall_mem_behindUnknown {P : Value → Prop} (atUnknown : P unknown) {element : Value}
    (here : P element) (i : Nat) : ∀ other ∈ behindUnknown i element, P other := by
  intro other member
  rcases List.mem_append.mp member with before | last
  · exact List.eq_of_mem_replicate before ▸ atUnknown
  · exact List.mem_singleton.mp last ▸ here

/-- Unknown elements may be repeated. -/
theorem noRepeats_behindUnknown (i : Nat) (element : Value) :
    NoRepeats (behindUnknown i element) := by
  refine List.pairwise_append.mpr ⟨?_, List.pairwise_singleton _ _, ?_⟩
  · refine List.pairwise_replicate.mpr (.inr fun known => ?_)
    cases known
  · intro earlier before last isLast known
    rw [List.eq_of_mem_replicate before, unknown_same]
    cases last with
    | unknown => cases known
    | _ => rfl

end Value

/-! ## Occurrences of a nested block -/

namespace NestedBlock

variable {nested : NestedBlock}

theorem completed_list_behindUnknown (repeated : nested.mode ≠ .single) (configured : Value)
    (i : Nat) (planned : Value) :
    nested.completed configured (.list (Value.behindUnknown i planned)) =
      .list (Value.behindUnknown i
        (nested.block.completed (configured.elementOrNull i) planned)) := by
  rw [completed_list repeated, Value.mapIdx_behindUnknown fun _ => nested.block.completed_unknown _]

theorem completed_set_behindUnknown (repeated : nested.mode ≠ .single) (configured : Value)
    (i : Nat) (planned : Value) :
    nested.completed configured (.set (Value.behindUnknown i planned)) =
      .set (Value.behindUnknown i
        (nested.block.completed (configured.elementOrNull i) planned)) := by
  rw [completed_set repeated, Value.mapIdx_behindUnknown fun _ => nested.block.completed_unknown _]

end NestedBlock

/-! ## Objects with one member -/

namespace Block

variable {block : Block} {name : String}

theorem isUnknown_fill (block : Block) (pass : PlanPass) (config planned : Value) :
    (block.fill pass config planned).isUnknown = planned.isUnknown := by
  cases block
  cases planned <;> rfl

/-- An object of the block with one value, and null everywhere else. -/
def only (block : Block) (name : String) (value : Value) : List (String × Value) :=
  block.memberTypes.map fun entry => (entry.1, if entry.1 = name then value else .null)

theorem covers_only (block : Block) (name : String) (value : Value) :
    block.Covers (block.only name value) :=
  Entries.keys_map_with_key (fun key (_ : AttributeType) => if key = name then value else .null) _

theorem attributeNamed_only (declared : (Entries.find? name block.memberTypes).isSome)
    (value : Value) (other : String) :
    (Value.object (block.only name value)).attributeNamed other =
      if other = name then value else .null := by
  rcases Option.isSome_iff_exists.mp declared with ⟨type, found⟩
  rw [Value.attributeNamed_object, only,
    Entries.find?_map_with_key fun key (_ : AttributeType) => if key = name then value else .null]
  by_cases here : other = name
  · rw [here, found]
    rfl
  · cases Entries.find? other block.memberTypes <;> simp [here]

theorem distinctSets_only {value : Value} (distinct : Value.DistinctSets value) :
    Value.DistinctSets (.object (block.only name value)) := by
  refine .object fun entry member => ?_
  rcases List.mem_map.mp member with ⟨declared, _, rfl⟩
  simp only
  split
  · exact distinct
  · exact .null

namespace WellFormed

/-- An object with one value has the type of the block when the value fits its name. -/
theorem hasType_only (wellFormed : block.WellFormed) {type : AttributeType} {value : Value}
    (declared : Entries.find? name block.memberTypes = some type)
    (typed : Value.HasType type value) :
    Value.HasType block.valueType (.object (block.only name value)) := by
  have atMember : ∀ other otherType, Entries.find? other block.memberTypes = some otherType →
      Value.HasType otherType
        ((Value.object (block.only name value)).attributeNamed other) := by
    intro other otherType found
    rw [attributeNamed_only (declared ▸ rfl)]
    split
    · next here =>
      rw [here, declared] at found
      cases found
      exact typed
    · exact .null _
  refine wellFormed.hasType_object (covers_only block name value) ?_ ?_
  · exact fun other attr found => atMember _ _ (wellFormed.find?_memberTypes_attribute found)
  · exact fun other nested found => atMember _ _ (wellFormed.find?_memberTypes_nested found)

end WellFormed

/-! ## Gaps that differ -/

/-- Some planned value of the block is completed to two values that are apart. -/
def Separates (block : Block) (config config' : Value) : Prop :=
  ∃ planned, Value.HasType block.valueType planned ∧ Value.DistinctSets planned ∧
    Value.Apart (block.completed config planned) (block.completed config' planned)

end Block

/-- Some planned occurrences of the nested block are completed to values that are apart. -/
def NestedBlock.Separates (nested : NestedBlock) (configured configured' : Value) : Prop :=
  ∃ planned, Value.HasType nested.valueType planned ∧ Value.DistinctSets planned ∧
    Value.Apart (nested.completed configured planned) (nested.completed configured' planned)

namespace NestedBlock

variable {nested : NestedBlock} {configured configured' : Value}

theorem separates_single (mode : nested.mode = .single)
    (inner : nested.block.Separates configured configured') :
    nested.Separates configured configured' := by
  rcases inner with ⟨planned, typed, distinct, apart⟩
  refine ⟨planned, hasType_of_occurrences (.single mode typed), distinct, ?_⟩
  rwa [completed_single mode, completed_single mode]

theorem separates_list (mode : nested.mode = .list) {i : Nat}
    (inner : nested.block.Separates (configured.elementOrNull i) (configured'.elementOrNull i)) :
    nested.Separates configured configured' := by
  rcases inner with ⟨planned, typed, distinct, apart⟩
  refine ⟨.list (Value.behindUnknown i planned), hasType_of_occurrences (.list mode ?_),
    .list ?_, ?_⟩
  · exact Value.forall_mem_behindUnknown (.unknown _) typed i
  · exact Value.forall_mem_behindUnknown .unknown distinct i
  · have repeated : nested.mode ≠ .single := by simp [mode]
    rw [completed_list_behindUnknown repeated, completed_list_behindUnknown repeated]
    exact apart.list i

theorem separates_set (mode : nested.mode = .set) {i : Nat}
    (inner : nested.block.Separates (configured.elementOrNull i) (configured'.elementOrNull i)) :
    nested.Separates configured configured' := by
  rcases inner with ⟨planned, typed, distinct, apart⟩
  -- An unknown value would be kept by both passes under both configurations.
  have known : planned.isUnknown = false := by
    refine Bool.eq_false_iff.mpr fun isUnknown => ?_
    have kept : ∀ config, nested.block.completed config planned = .unknown := by
      intro config
      cases planned with
      | unknown =>
          unfold Block.completed
          rw [Block.fill_unknown, Block.fill_unknown]
      | _ => cases isUnknown
    rw [kept, kept] at apart
    exact Value.not_apart_self _ apart
  have stays : ∀ config, (nested.block.completed config planned).isUnknown = false := by
    intro config
    unfold Block.completed
    rw [Block.isUnknown_fill, Block.isUnknown_fill, known]
  refine ⟨.set (Value.behindUnknown i planned), hasType_of_occurrences (.set mode ?_),
    .set ?_ ?_, ?_⟩
  · exact Value.forall_mem_behindUnknown (.unknown _) typed i
  · exact Value.forall_mem_behindUnknown .unknown distinct i
  · exact Value.noRepeats_behindUnknown i planned
  · rw [completed_set_behindUnknown (by simp [mode]), completed_set_behindUnknown (by simp [mode])]
    exact apart.set (stays _) (stays _) i

theorem separates_map (mode : nested.mode = .map) {key : String}
    (inner : nested.block.Separates (configured.entryOrNull key) (configured'.entryOrNull key)) :
    nested.Separates configured configured' := by
  rcases inner with ⟨planned, typed, distinct, apart⟩
  refine ⟨.map [(key, planned)], hasType_of_occurrences (.map mode ?_), .map ?_, ?_⟩
  · exact List.forall_mem_singleton.mpr typed
  · exact List.forall_mem_singleton.mpr distinct
  · rw [completed_map (by simp [mode]), completed_map (by simp [mode])]
    exact apart.map key

end NestedBlock

namespace Block

variable {block : Block} {config config' : Value} {name : String}

theorem Separates.symm (separates : block.Separates config config') :
    block.Separates config' config := by
  rcases separates with ⟨planned, typed, distinct, apart⟩
  exact ⟨planned, typed, distinct, apart.symm⟩

namespace WellFormed

/-- A gap in one of two configurations only shows in an object with a value other than the
filler. -/
theorem separates_of_gap (wellFormed : block.WellFormed) {attr : Attribute}
    (found : Entries.find? name block.attributes = some attr)
    (fillable : attr.filler?.isSome = true) (gap : (config.attributeNamed name).isNull = true)
    (present : (config'.attributeNamed name).isNull = false) : block.Separates config config' := by
  rcases Option.isSome_iff_exists.mp fillable with ⟨filler, isFiller⟩
  have declared := wellFormed.find?_memberTypes_attribute found
  have separated : ∀ other, Value.HasType attr.type other → Value.DistinctSets other →
      Value.Apart filler other → block.Separates config config' := by
    intro other typed distinct apart
    refine ⟨_, wellFormed.hasType_only declared typed, distinctSets_only distinct,
      .of_attributeNamed name ?_⟩
    rw [wellFormed.attribute_completed (covers_only ..) found,
      wellFormed.attribute_completed (covers_only ..) found,
      Attribute.completed_of_gap isFiller gap, Attribute.completed_of_configured present,
      attributeNamed_only (declared ▸ rfl), if_pos rfl]
    exact apart
  cases isNull : filler.isNull with
  | true =>
      refine separated .unknown (.unknown _) .unknown ⟨?_, ?_⟩
      · cases filler with
        | null => rfl
        | _ => cases isNull
      · rw [Value.unknown_same]
        cases filler with
        | null => rfl
        | _ => cases isNull
  | false =>
      refine separated .null (.null _) .null ⟨?_, ?_⟩
      · rw [Value.same_null, isNull]
      · rw [Value.null_same, isNull]

/-- Occurrences that are completed differently make objects that are. -/
theorem separates_of_nested (wellFormed : block.WellFormed) {nested : NestedBlock}
    (found : Entries.find? name block.blocks = some nested)
    (separates : nested.Separates (config.attributeNamed name) (config'.attributeNamed name)) :
    block.Separates config config' := by
  rcases separates with ⟨planned, typed, distinct, apart⟩
  have declared := wellFormed.find?_memberTypes_nested found
  refine ⟨_, wellFormed.hasType_only declared typed, distinctSets_only distinct,
    .of_attributeNamed name ?_⟩
  rw [wellFormed.nested_completed (covers_only ..) found,
    wellFormed.nested_completed (covers_only ..) found,
    attributeNamed_only (declared ▸ rfl), if_pos rfl]
  exact apart

/-- Configurations that no planned value tells apart have the same gaps. -/
theorem sameGaps_of_not_separates (wellFormed : block.WellFormed)
    (alike : ¬ block.Separates config config') : block.SameGaps config config' := by
  induction block, wellFormed using WellFormed.induct generalizing config config' with
  | step block wellFormed inductionHypothesis =>
      refine .intro ?_ ?_ ?_ ?_
      · intro name attr found fillable
        cases gap : (config.attributeNamed name).isNull <;>
          cases gap' : (config'.attributeNamed name).isNull
        · rfl
        · exact absurd (wellFormed.separates_of_gap found fillable gap' gap).symm alike
        · exact absurd (wellFormed.separates_of_gap found fillable gap gap') alike
        · rfl
      · intro name nested found mode
        refine inductionHypothesis _ (Entries.mem_of_find? found) fun separates => alike ?_
        exact wellFormed.separates_of_nested found (NestedBlock.separates_single mode separates)
      · intro name nested found mode i
        refine inductionHypothesis _ (Entries.mem_of_find? found) fun separates => alike ?_
        rcases mode with mode | mode
        · exact wellFormed.separates_of_nested found (NestedBlock.separates_list mode separates)
        · exact wellFormed.separates_of_nested found (NestedBlock.separates_set mode separates)
      · intro name nested found mode key
        refine inductionHypothesis _ (Entries.mem_of_find? found) fun separates => alike ?_
        exact wellFormed.separates_of_nested found (NestedBlock.separates_map mode separates)

end WellFormed
end Block
end ProviderKit
