import ProviderKit.Value.Basic

/-!
# Equality of values

Lists are equal element by element, maps and objects entry by entry.  Two sets
are equal when they have the same number of elements and every element of the
first occurs in the second.  The search for an occurrence compares the element
found with the element sought, so the sides of the comparison change at each set.
`sameFrom` keeps track of the side on which a value stands, which makes the
recursion descend on one argument; `sameFrom_swap` says that it only turns the
comparison around, and `same_set` states the rule for sets without it.
-/

namespace ProviderKit
namespace Value

mutual

/-- Equality with a value on the left, or on the right when `reversed` is set. -/
def sameFrom (reversed : Bool) : Value → Value → Bool
  | null, null => true
  | unknown, unknown => true
  | bool a, bool b => a == b
  | number m, number n => m.same n
  | string s, string t => s == t
  | list xs, list ys => sameItems reversed xs ys
  | set xs, set ys =>
    xs.length == ys.length &&
      if reversed then ys.all (occursIn xs) else allOccurIn xs ys
  | map xs, map ys => sameEntries reversed xs ys
  | object xs, object ys => sameEntries reversed xs ys
  | _, _ => false
termination_by structural v => v

/-- Element by element equality. -/
def sameItems (reversed : Bool) : List Value → List Value → Bool
  | [], [] => true
  | x :: xs, y :: ys => sameFrom reversed x y && sameItems reversed xs ys
  | _, _ => false
termination_by structural xs => xs

def sameEntries (reversed : Bool) : List (String × Value) → List (String × Value) → Bool
  | [], [] => true
  | (k, x) :: xs, (l, y) :: ys => k == l && sameFrom reversed x y && sameEntries reversed xs ys
  | _, _ => false
termination_by structural xs => xs

/-- Whether each of the elements has an equal among others. -/
def allOccurIn : List Value → List Value → Bool
  | [], _ => true
  | x :: xs, ys => ys.any (sameFrom true x) && allOccurIn xs ys
termination_by structural xs => xs

/-- Whether a value has an equal among the elements. -/
def occursIn : List Value → Value → Bool
  | [], _ => false
  | x :: xs, y => sameFrom false x y || occursIn xs y
termination_by structural xs => xs

end

/-- Equality of values. -/
def same (v w : Value) : Bool :=
  sameFrom false v w

instance : BEq Value := ⟨same⟩

theorem all_congr_mem {xs : List Value} {p q : Value → Bool} (equal : ∀ x ∈ xs, p x = q x) :
    xs.all p = xs.all q := by
  induction xs with
  | nil => rfl
  | cons x xs ih => simp_all

theorem any_congr_mem {xs : List Value} {p q : Value → Bool} (equal : ∀ x ∈ xs, p x = q x) :
    xs.any p = xs.any q := by
  induction xs with
  | nil => rfl
  | cons x xs ih => simp_all

theorem allOccurIn_eq_all (xs ys : List Value) :
    allOccurIn xs ys = xs.all fun x => ys.any fun y => sameFrom true x y := by
  induction xs with
  | nil => rfl
  | cons x xs ih => simp [allOccurIn, ih]

theorem occursIn_eq_any (xs : List Value) (y : Value) :
    occursIn xs y = xs.any fun x => sameFrom false x y := by
  induction xs with
  | nil => rfl
  | cons x xs ih => simp [occursIn, ih]

mutual

/-- Comparing from the other side turns the comparison around. -/
theorem sameFrom_swap (reversed : Bool) :
    ∀ v w : Value, sameFrom reversed v w = sameFrom (!reversed) w v
  | .list xs, w => by
    cases w <;> simp only [sameFrom]
    exact sameItems_swap reversed xs _
  | .set xs, w => by
    cases w <;> simp only [sameFrom]
    next ys =>
      have each := sameFrom_swap_of_mem xs
      rw [Bool.beq_comm]
      cases reversed
      · simp only [Bool.false_eq_true, if_false, Bool.not_false, if_true, allOccurIn_eq_all]
        congr 1
        refine all_congr_mem fun x isIn => ?_
        rw [occursIn_eq_any]
        exact any_congr_mem fun y _ => each true x isIn y
      · simp only [if_true, Bool.not_true, Bool.false_eq_true, if_false, allOccurIn_eq_all]
        congr 1
        refine all_congr_mem fun y _ => ?_
        rw [occursIn_eq_any]
        exact any_congr_mem fun x isIn => each false x isIn y
  | .map xs, w => by
    cases w <;> simp only [sameFrom]
    exact sameEntries_swap reversed xs _
  | .object xs, w => by
    cases w <;> simp only [sameFrom]
    exact sameEntries_swap reversed xs _
  | .null, w => by cases w <;> rfl
  | .unknown, w => by cases w <;> rfl
  | .bool a, w => by cases w <;> simp [sameFrom, Bool.beq_comm]
  | .number m, w => by
    cases w <;> simp only [sameFrom]
    next n => exact Json.Number.same_comm m n
  | .string s, w => by cases w <;> simp [sameFrom, Bool.beq_comm]
termination_by structural v => v

theorem sameItems_swap (reversed : Bool) :
    ∀ xs ys : List Value, sameItems reversed xs ys = sameItems (!reversed) ys xs
  | [], ys => by cases ys <;> rfl
  | x :: xs, ys => by
    cases ys with
    | nil => rfl
    | cons y ys => simp only [sameItems, sameFrom_swap reversed x y, sameItems_swap reversed xs ys]
termination_by structural xs => xs

theorem sameEntries_swap (reversed : Bool) :
    ∀ xs ys : List (String × Value), sameEntries reversed xs ys = sameEntries (!reversed) ys xs
  | [], ys => by cases ys <;> rfl
  | (k, x) :: xs, ys => by
    cases ys with
    | nil => rfl
    | cons entry ys =>
      obtain ⟨l, y⟩ := entry
      simp only [sameEntries, sameFrom_swap reversed x y, sameEntries_swap reversed xs ys,
        @Bool.beq_comm _ _ _ k]
termination_by structural xs => xs

theorem sameFrom_swap_of_mem :
    ∀ xs : List Value, ∀ reversed, ∀ x ∈ xs, ∀ y,
      sameFrom reversed x y = sameFrom (!reversed) y x
  | [], _, _, isIn, _ => by cases isIn
  | x :: xs, reversed, z, isIn, y => by
    cases isIn with
    | head => exact sameFrom_swap reversed x y
    | tail _ isIn => exact sameFrom_swap_of_mem xs reversed z isIn y
termination_by structural xs => xs

end

/-- Sets are equal when they have equally many elements and each element of the first
is found in the second. -/
theorem same_set (xs ys : List Value) :
    (set xs).same (set ys) =
      (xs.length == ys.length && xs.all fun x => ys.any fun y => y.same x) := by
  simp only [same, sameFrom, allOccurIn_eq_all, Bool.false_eq_true, if_false]
  congr 1
  exact all_congr_mem fun x _ => any_congr_mem fun y _ => sameFrom_swap true x y

end Value
end ProviderKit
