import ProviderKit.Proofs.Value.KeyOrder
import ProviderKit.Value.Access

/-!
# Writes that fail

A write follows its path one step at a time and creates what is missing on the way, so a write
that fails has done something already unless everything before the failing step was there.
`Blocked` says that it was: the steps lead through parts that exist, up to a value that is not
null and has no room for the next step.  These are the writes that fail without a trace.
-/

namespace ProviderKit
namespace Value

/-- The element at an index, when there is one. -/
def elementAt? (elements : List Value) (index : Int) : Option Value :=
  if 0 ≤ index then elements[index.toNat]? else none

/-- The part that a step leads to, when it is there. -/
def part? : Value → PathStep → Option Value
  | object attributes, .name name => Entries.find? name attributes
  | map entries, .key key => Entries.find? key entries
  | list elements, .index index => elementAt? elements index
  | set elements, .index index => elementAt? elements index
  | _, _ => none

/-- Whether a step finds a part or room for a new one, which a list has behind its last element
only. -/
def HasRoom : Value → PathStep → Prop
  | object _, .name _ => True
  | map _, .key _ => True
  | list elements, .index index => 0 ≤ index ∧ index ≤ elements.length
  | set elements, .index index => 0 ≤ index ∧ index ≤ elements.length
  | _, _ => False

/-- The value with another part where a step leads. -/
def withPart : Value → PathStep → Value → Value
  | object attributes, .name name, part => object (Entries.insert name part attributes)
  | map entries, .key key, part => map (Entries.insert key part entries)
  | list elements, .index index, part => list (putElement elements index.toNat part)
  | set elements, .index index, part => set (putElement elements index.toNat part)
  | value, _, _ => value

/-- The path leads through parts that are there to a value that cannot take the next step. -/
inductive Blocked : Path → Value → Prop
  | here {step : PathStep} {rest : Path} {current : Value} (present : current ≠ null)
      (full : ¬ current.HasRoom step) : Blocked (step :: rest) current
  | inside {step : PathStep} {rest : Path} {current part : Value}
      (found : current.part? step = some part) (further : Blocked rest part) :
      Blocked (step :: rest) current

variable {new current part : Value} {step : PathStep} {path rest : Path}

/-! ## Elements -/

section Elements

variable {elements : List Value} {index : Int}

theorem elementAt_eq_getD (elements : List Value) (index : Int) :
    elementAt elements index = (elementAt? elements index).getD null := by
  unfold elementAt elementAt?
  by_cases lower : 0 ≤ index
  · rw [if_neg (not_lt.mpr lower), if_pos lower]
  · rw [if_pos (not_le.mp lower), if_neg lower]
    rfl

theorem elementAt?_natCast (elements : List Value) (index : Nat) :
    elementAt? elements index = elements[index]? := by
  rw [elementAt?, if_pos (Int.natCast_nonneg index), Int.toNat_natCast]

theorem elementAt?_eq_some_iff {elements : List Value} {index : Int} :
    elementAt? elements index = some part ↔ ∃ i : Nat, index = i ∧ elements[i]? = some part := by
  constructor
  · intro found
    unfold elementAt? at found
    split at found
    · next lower => exact ⟨index.toNat, (Int.toNat_of_nonneg lower).symm, found⟩
    · cases found
  · rintro ⟨i, rfl, found⟩
    rwa [elementAt?_natCast]

theorem mem_of_elementAt? (found : elementAt? elements index = some part) : part ∈ elements := by
  unfold elementAt? at found
  split at found
  · exact List.mem_of_getElem? found
  · cases found

theorem putElement_eq_self_iff (lower : 0 ≤ index) :
    putElement elements index.toNat part = elements ↔ elementAt? elements index = some part := by
  unfold putElement elementAt?
  rw [if_pos lower]
  split
  · next inside =>
    rw [List.getElem?_eq_getElem inside, Option.some.injEq]
    refine ⟨fun same => ?_, fun same => same ▸ List.set_getElem_self inside⟩
    have stored := List.getElem?_set_self (a := part) inside
    rw [same, List.getElem?_eq_getElem inside] at stored
    exact Option.some.inj stored
  · next outside =>
    rw [List.getElem?_eq_none_iff.mpr (not_lt.mp outside)]
    simp

end Elements

/-! ## One step -/

theorem blocked_cons_iff (room : current.HasRoom step) :
    Blocked (step :: rest) current ↔
      ∃ part, current.part? step = some part ∧ Blocked rest part := by
  constructor
  · intro blocked
    cases blocked with
    | here _ full => exact absurd room full
    | inside found further => exact ⟨_, found, further⟩
  · rintro ⟨part, found, further⟩
    exact .inside found further

theorem not_blocked_null : ¬ Blocked path null := by
  intro blocked
  cases blocked with
  | here present _ => exact present rfl
  | inside found _ => cases found

/-- A write goes on at the part that a step leads to, or at a new null one. -/
theorem writeAlong_of_hasRoom (room : current.HasRoom step) :
    writeAlong new (step :: rest) current =
      (writeAlong new rest ((current.part? step).getD null)).within (current.withPart step) := by
  cases current <;> cases step <;> try cases room
  case object.name | map.key => rfl
  case list.index elements index lower upper | set.index elements index lower upper =>
    rw [part?, ← elementAt_eq_getD elements index]
    exact if_pos (c := 0 ≤ index ∧ index ≤ elements.length) ⟨lower, upper⟩

/-- A write stops at a value without room, and leaves it alone unless it is null. -/
theorem writeAlong_of_not_hasRoom (present : current ≠ null) (full : ¬ current.HasRoom step) :
    writeAlong new (step :: rest) current = ⟨current, false⟩ := by
  cases current <;> cases step <;> try rfl
  case null.name | null.key | null.index => exact absurd rfl present
  case object.name | map.key => exact absurd trivial full
  case list.index | set.index => exact if_neg full

/-- Nothing is written into a null value before it has become a container. -/
theorem writeAlong_null_ne (new : Value) (step : PathStep) (rest : Path) :
    (writeAlong new (step :: rest) null).value ≠ null := by
  cases step with
  | name name => exact nofun
  | key key => exact nofun
  | index index =>
      have opened : writeAlong new (.index index :: rest) null =
          if 0 ≤ index ∧ index ≤ ([] : List Value).length then
            (writeAlong new rest (elementAt [] index)).within fun element =>
              list (putElement [] index.toNat element)
          else ⟨list [], false⟩ := rfl
      rw [opened]
      split <;> exact nofun

/-- Storing a part changes nothing exactly when it is there already. -/
theorem withPart_eq_self_iff (ordered : current.KeyOrdered) (room : current.HasRoom step) :
    current.withPart step part = current ↔ current.part? step = some part := by
  cases ordered <;> cases step <;> try cases room
  case object.name sorted _ _ =>
    exact object.injEq .. ▸ Entries.insert_eq_self_iff sorted
  case map.key sorted _ _ =>
    exact map.injEq .. ▸ Entries.insert_eq_self_iff sorted
  case list.index lower _ => exact list.injEq .. ▸ putElement_eq_self_iff lower
  case set.index lower _ => exact set.injEq .. ▸ putElement_eq_self_iff lower

theorem KeyOrdered.part? (ordered : current.KeyOrdered) (found : current.part? step = some part) :
    part.KeyOrdered := by
  cases ordered <;> cases step <;> try cases found
  case object.name inner _ | map.key inner _ => exact inner _ (Entries.mem_of_find? found)
  case list.index inner _ | set.index inner _ => exact inner _ (mem_of_elementAt? found)

/-! ## The whole path -/

/-- A write that fails leaves the value as it was exactly when it was blocked. -/
theorem writeAlong_value_eq_self_iff (ordered : current.KeyOrdered)
    (incomplete : (writeAlong new path current).complete = false) :
    (writeAlong new path current).value = current ↔ Blocked path current := by
  induction path generalizing current with
  | nil => cases incomplete
  | cons step rest inductionHypothesis =>
      by_cases absent : current = null
      · subst absent
        exact iff_of_false (writeAlong_null_ne new step rest) not_blocked_null
      by_cases room : current.HasRoom step
      · rw [writeAlong_of_hasRoom room] at incomplete ⊢
        rw [blocked_cons_iff room]
        refine (withPart_eq_self_iff ordered room).trans ?_
        cases found : current.part? step with
        | none => simp
        | some part =>
            rw [found] at incomplete
            have further := inductionHypothesis (ordered.part? found) incomplete
            simp only [Option.getD_some, Option.some.injEq, exists_eq_left', ← further]
            exact eq_comm
      · rw [writeAlong_of_not_hasRoom absent room]
        exact iff_of_true rfl (.here absent room)

end Value
end ProviderKit
