import ProviderKit.Proofs.Schema.TypePaths
import ProviderKit.Proofs.Value.UnknownPaths
import ProviderKit.Schema.Validation

/-!
# Occurrences of blocks in a value

An occurrence of a block is an object that stands in the value where nested blocks lead: under the
name of the block, and behind it at the index or the key where the block repeats.  The traversal of
a configuration lists the occurrences of one nested block at a time, in the order of their indexes
or keys, and finds those that stand further in from there.
-/

namespace ProviderKit

/-- An index or a key that comes before another one. -/
inductive PathStep.Before : PathStep → PathStep → Prop
  | index {number other : Int} (earlier : number < other) : Before (.index number) (.index other)
  | key {word other : String} (earlier : word < other) : Before (.key word) (.key other)

/-- The object stands at a place of the value to which nested blocks lead, and is an occurrence of
the inner one. -/
structure Block.Occurs (block : Block) (value : Value) (place : Path) (inner : Block)
    (occurrence : Value) : Prop where
  reaches : block.Reaches place inner
  found : value.partAt? place = some occurrence
  isObject : occurrence.isObject = true

theorem PathStep.Before.ne {step other : PathStep} (before : step.Before other) : step ≠ other := by
  rintro rfl
  cases before with
  | index earlier => exact lt_irrefl _ earlier
  | key earlier => exact lt_irrefl _ earlier

namespace Value

variable {value part : Value} {name : String}

theorem isObject_iff : value.isObject = true ↔ ∃ attributes, value = .object attributes := by
  cases value <;> simp [isObject]

/-- Only an object has a part with a name. -/
theorem part?_name_eq_some_iff :
    value.part? (.name name) = some part ↔
      ∃ attributes, value = .object attributes ∧ Entries.find? name attributes = some part := by
  cases value with
  | object attributes =>
      refine ⟨fun found => ⟨attributes, rfl, found⟩, ?_⟩
      rintro ⟨_, ⟨⟩, found⟩
      exact found
  | _ => exact iff_of_false nofun nofun

theorem isObject_of_part? (found : value.part? (.name name) = some part) :
    value.isObject = true := by
  rcases part?_name_eq_some_iff.mp found with ⟨attributes, rfl, _⟩
  rfl

theorem attributeNamed_of_part? (found : value.part? (.name name) = some part) :
    value.attributeNamed name = part := by
  rcases part?_name_eq_some_iff.mp found with ⟨attributes, rfl, present⟩
  rw [attributeNamed_object, present]
  rfl

/-- The parts of a value that are chosen by an index or a key come in the order of these. -/
theorem parts_ordered (ordered : value.KeyOrdered) (noObject : value.isObject = false) :
    value.parts.Pairwise fun part other => part.1.Before other.1 := by
  cases ordered with
  | null | unknown | bool | number | string => exact .nil
  | @list elements | @set elements =>
      have indexes : (elements.zipIdx.map Prod.snd).Pairwise (· < ·) := by
        rw [List.zipIdx_map_snd]
        exact List.pairwise_lt_range'
      refine List.pairwise_map.mpr ((List.pairwise_map.mp indexes).imp fun earlier => ?_)
      exact .index (Int.ofNat_lt.mpr earlier)
  | map sorted =>
      exact List.pairwise_map.mpr ((List.pairwise_map.mp sorted).imp .key)
  | object => cases noObject

/-- Only an index or a key finds a part of what is no object. -/
theorem hasType_part? {nested : NestedBlock} {step : PathStep}
    (typed : HasType nested.valueType value) (repeated : nested.mode ≠ .single)
    (found : value.part? step = some part) : HasType nested.block.valueType part := by
  cases NestedBlock.occurrences_of_hasType typed with
  | single mode => exact absurd mode repeated
  | null | unknown => cases found
  | list _ each | set _ each =>
      cases step with
      | index index => exact each part (mem_of_elementAt? found)
      | _ => cases found
  | map _ each =>
      cases step with
      | key key => exact each _ (Entries.mem_of_find? found)
      | _ => cases found

end Value

/-! ## The occurrences of one nested block -/

theorem NestingMode.Chooses.eq_singleton {mode : NestingMode} {chosen : Path}
    (chooses : mode.Chooses chosen) (repeated : mode ≠ .single) : ∃ step, chosen = [step] := by
  cases chooses with
  | single => exact absurd rfl repeated
  | list | set | map => exact ⟨_, rfl⟩

namespace NestedBlock

variable {nested : NestedBlock} {value part : Value} {chosen path : Path}

theorem isObject_eq_false_of_repeated (repeated : nested.mode ≠ .single)
    (typed : Value.HasType nested.valueType value) : value.isObject = false := by
  cases occurrences_of_hasType typed with
  | single mode => exact absurd mode repeated
  | _ => rfl

/-- Where a block repeats, its occurrences are what single steps find. -/
theorem occurrences_of_repeated (repeated : nested.mode ≠ .single)
    (typed : Value.HasType nested.valueType value) (path : Path) :
    nested.mode.occurrences path value =
      value.parts.map fun part => (path ++ [part.1], part.2) := by
  cases occurrences_of_hasType typed with
  | single mode => exact absurd mode repeated
  | null | unknown => cases nested.mode <;> rfl
  | list mode | set mode | map mode =>
      rw [mode, Value.parts, List.map_map]
      rfl

theorem occurrences_of_single (mode : nested.mode = .single) (path : Path) (value : Value) :
    nested.mode.occurrences path value =
      if value.isNull || value.isUnknown then [] else [(path, value)] := by
  rw [mode]
  rfl

/-- The occurrences below a path stand where they stand in the value itself. -/
theorem occurrences_eq_map (typed : Value.HasType nested.valueType value) (path : Path) :
    nested.mode.occurrences path value =
      (nested.mode.occurrences [] value).map fun occurrence =>
        (path ++ occurrence.1, occurrence.2) := by
  by_cases mode : nested.mode = .single
  · rw [occurrences_of_single mode, occurrences_of_single mode]
    split
    · rfl
    · rw [List.map_singleton, List.append_nil]
  · rw [occurrences_of_repeated mode typed, occurrences_of_repeated mode typed, List.map_map]
    rfl

theorem chooses_of_value_part? (repeated : nested.mode ≠ .single)
    (typed : Value.HasType nested.valueType value) {step : PathStep}
    (found : value.part? step = some part) : nested.mode.Chooses [step] := by
  cases occurrences_of_hasType typed with
  | single mode => exact absurd mode repeated
  | null | unknown => cases found
  | list mode | set mode | map mode =>
      rw [mode]
      cases step <;> first | constructor | cases found

/-- What is listed is chosen by its place. -/
theorem chosen_of_mem_occurrences (typed : Value.HasType nested.valueType value)
    (ordered : value.KeyOrdered) (member : (chosen, part) ∈ nested.mode.occurrences [] value) :
    nested.mode.Chooses chosen ∧ value.partAt? chosen = some part := by
  by_cases mode : nested.mode = .single
  · rw [occurrences_of_single mode] at member
    split at member
    · cases member
    · cases List.mem_singleton.mp member
      exact ⟨mode ▸ .single, rfl⟩
  · rw [occurrences_of_repeated mode typed] at member
    rcases List.mem_map.mp member with ⟨⟨step, _⟩, isPart, same⟩
    cases same
    have found := (Value.mem_parts_iff ordered).mp isPart
    exact ⟨chooses_of_value_part? mode typed found,
      Value.partAt?_cons_eq_some_iff.mpr ⟨_, found, rfl⟩⟩

/-- An object that a choice leads to is listed. -/
theorem mem_occurrences_of_chosen (typed : Value.HasType nested.valueType value)
    (ordered : value.KeyOrdered) (chooses : nested.mode.Chooses chosen)
    (found : value.partAt? chosen = some part) (isObject : part.isObject = true) :
    (chosen, part) ∈ nested.mode.occurrences [] value := by
  by_cases mode : nested.mode = .single
  · rw [occurrences_of_single mode]
    rw [mode] at chooses
    cases chooses
    cases found
    rcases Value.isObject_iff.mp isObject with ⟨attributes, rfl⟩
    exact List.mem_singleton_self _
  · rw [occurrences_of_repeated mode typed]
    rcases chooses.eq_singleton mode with ⟨step, rfl⟩
    rcases Value.partAt?_cons_eq_some_iff.mp found with ⟨_, first, last⟩
    cases last
    exact List.mem_map.mpr ⟨(step, part), (Value.mem_parts_iff ordered).mpr first, rfl⟩

/-- The occurrences come in the order of the indexes or keys that choose them. -/
theorem occurrences_ordered (typed : Value.HasType nested.valueType value)
    (ordered : value.KeyOrdered) :
    (nested.mode.occurrences [] value).Pairwise fun occurrence other =>
      ∃ step step', occurrence.1 = [step] ∧ other.1 = [step'] ∧ step.Before step' := by
  by_cases mode : nested.mode = .single
  · rw [occurrences_of_single mode]
    split
    · exact .nil
    · exact List.pairwise_singleton _ _
  · rw [occurrences_of_repeated mode typed]
    have inOrder := Value.parts_ordered ordered (isObject_eq_false_of_repeated mode typed)
    exact List.pairwise_map.mpr (inOrder.imp fun before => ⟨_, _, rfl, rfl, before⟩)

/-- An occurrence that is listed has the type of the block, and its keys are in order as well. -/
theorem hasType_of_mem_occurrences (typed : Value.HasType nested.valueType value)
    (ordered : value.KeyOrdered) {occurrence : Path × Value}
    (member : occurrence ∈ nested.mode.occurrences [] value) :
    Value.HasType nested.block.valueType occurrence.2 ∧ occurrence.2.KeyOrdered := by
  by_cases mode : nested.mode = .single
  · rw [occurrences_of_single mode] at member
    rw [valueType, mode] at typed
    split at member
    · cases member
    · rcases List.mem_singleton.mp member with rfl
      exact ⟨typed, ordered⟩
  · rw [occurrences_of_repeated mode typed] at member
    rcases List.mem_map.mp member with ⟨⟨step, part⟩, isPart, rfl⟩
    have found := (Value.mem_parts_iff ordered).mp isPart
    exact ⟨Value.hasType_part? typed mode found, ordered.part? found⟩

end NestedBlock

/-! ## Occurrences further in -/

namespace Block

variable {block inner : Block} {value occurrence part : Value} {name : String}
  {place chosen rest : Path} {nested : NestedBlock}

/-- An object of a block has a part for each member. -/
theorem part?_member (typed : Value.HasType block.valueType value)
    (isObject : value.isObject = true) (declared : name ∈ Entries.keys block.memberTypes) :
    value.part? (.name name) = some (value.attributeNamed name) := by
  rcases Value.isObject_iff.mp isObject with ⟨attributes, rfl⟩
  rw [valueType_eq] at typed
  cases typed with
  | object keys =>
      rcases Entries.exists_find? (keys ▸ declared) with ⟨member, found⟩
      rw [Value.attributeNamed_object, Value.part?, found]
      rfl

theorem WellFormed.part?_attribute (wellFormed : block.WellFormed)
    (typed : Value.HasType block.valueType value) (isObject : value.isObject = true)
    {attr : Attribute} (found : Entries.find? name block.attributes = some attr) :
    value.part? (.name name) = some (value.attributeNamed name) :=
  part?_member typed isObject
    (Entries.find?_isSome_iff.mp (wellFormed.find?_memberTypes_attribute found ▸ rfl))

theorem WellFormed.part?_nested (wellFormed : block.WellFormed)
    (typed : Value.HasType block.valueType value) (isObject : value.isObject = true)
    (found : Entries.find? name block.blocks = some nested) :
    value.part? (.name name) = some (value.attributeNamed name) :=
  part?_member typed isObject
    (Entries.find?_isSome_iff.mp (wellFormed.find?_memberTypes_nested found ▸ rfl))

namespace Occurs

/-- Only in an object anything occurs. -/
theorem isObject_of_occurs (occurs : block.Occurs value place inner occurrence) :
    value.isObject = true := by
  rcases occurs with ⟨reaches, found, isObject⟩
  cases reaches with
  | here => exact Option.some.inj found ▸ isObject
  | nested =>
      rcases Value.partAt?_cons_eq_some_iff.mp found with ⟨_, first, _⟩
      exact Value.isObject_of_part? first

/-- What occurs in an occurrence of a nested block occurs further in. -/
theorem within (wellFormed : block.WellFormed) (typed : Value.HasType block.valueType value)
    (ordered : value.KeyOrdered) (isObject : value.isObject = true)
    (found : Entries.find? name block.blocks = some nested)
    (member : (chosen, part) ∈ nested.mode.occurrences [] (value.attributeNamed name))
    (inside : nested.block.Occurs part rest inner occurrence) :
    block.Occurs value (.name name :: (chosen ++ rest)) inner occurrence := by
  rcases NestedBlock.chosen_of_mem_occurrences (wellFormed.hasType_nested typed found)
    (ordered.attributeNamed name) member with ⟨chooses, atChosen⟩
  refine ⟨.nested found chooses inside.reaches, ?_, inside.isObject⟩
  rw [Value.partAt?, wellFormed.part?_nested typed isObject found, Option.bind_some,
    Value.partAt?_append, atChosen]
  exact inside.found

/-- What occurs is the object itself or occurs in an occurrence of a nested block. -/
theorem eq_or_within (occurs : block.Occurs value place inner occurrence)
    (wellFormed : block.WellFormed) (typed : Value.HasType block.valueType value)
    (ordered : value.KeyOrdered) :
    place = [] ∧ inner = block ∧ occurrence = value ∨
      ∃ name nested chosen part rest, Entries.find? name block.blocks = some nested ∧
        (chosen, part) ∈ nested.mode.occurrences [] (value.attributeNamed name) ∧
          place = .name name :: (chosen ++ rest) ∧
            nested.block.Occurs part rest inner occurrence := by
  rcases occurs with ⟨reaches, found, isObject⟩
  cases reaches with
  | here => exact .inl ⟨rfl, rfl, (Option.some.inj found).symm⟩
  | @nested _ _ name nested chosen rest declared chooses further =>
      rcases Value.partAt?_cons_eq_some_iff.mp found with ⟨member, first, later⟩
      rw [Value.partAt?_append] at later
      rcases Option.bind_eq_some_iff.mp later with ⟨part, atChosen, inside⟩
      rw [← Value.attributeNamed_of_part? first] at atChosen
      have occurs : nested.block.Occurs part rest inner occurrence := ⟨further, inside, isObject⟩
      refine .inr ⟨name, nested, chosen, part, rest, declared, ?_, rfl, occurs⟩
      exact NestedBlock.mem_occurrences_of_chosen (wellFormed.hasType_nested typed declared)
        (ordered.attributeNamed name) chooses atChosen occurs.isObject_of_occurs

/-- An occurrence has the type of its block. -/
theorem hasType (occurs : block.Occurs value place inner occurrence)
    (wellFormed : block.WellFormed) (typed : Value.HasType block.valueType value)
    (ordered : value.KeyOrdered) : Value.HasType inner.valueType occurrence := by
  induction block, wellFormed using WellFormed.induct generalizing value place with
  | step block wellFormed inductionHypothesis =>
      rcases occurs.eq_or_within wellFormed typed ordered with
        ⟨_, rfl, rfl⟩ | ⟨name, nested, chosen, part, rest, declared, member, _, inside⟩
      · exact typed
      · rcases NestedBlock.hasType_of_mem_occurrences (wellFormed.hasType_nested typed declared)
          (ordered.attributeNamed name) member with ⟨partTyped, partOrdered⟩
        exact inductionHypothesis _ (Entries.mem_of_find? declared) inside partTyped partOrdered

end Occurs
end Block
end ProviderKit
