import Mathlib.Algebra.Field.Rat
import Mathlib.Algebra.Order.Ring.Rat
import ProviderKit.Proofs.Number.Int64
import ProviderKit.Value.Decode

/-!
# Whole numbers are decoded exactly

Every number of a document stands for a rational: an integer for itself, and a double for its
significand times a power of two.  A type of whole numbers takes the numbers whose rational is an
integer of 64 bits with sign, and what they are decoded to is this integer.  All others are a
mismatch, the ones just past a limit too, so nothing is ever rounded to fit.
-/

namespace ProviderKit

namespace Binary64

/-- The rational that a double stands for. -/
def toRat (x : Binary64) : ℚ :=
  (if x.negative then -1 else 1) * x.significand * 2 ^ ((x.shift : ℤ) - 1074)

private theorem two_zpow_sub_mul (shift place : ℕ) :
    (2 : ℚ) ^ ((shift : ℤ) - place) * (2 ^ place : ℕ) = (2 ^ shift : ℕ) := by
  rw [zpow_sub₀ two_ne_zero, zpow_natCast, zpow_natCast, Nat.cast_pow, Nat.cast_pow,
    Nat.cast_ofNat]
  exact div_mul_cancel₀ _ (pow_ne_zero _ two_ne_zero)

theorem toRat_mul_unitsPerOne (x : Binary64) : x.toRat * unitsPerOne = x.scaled := by
  have scale := two_zpow_sub_mul x.shift 1074
  rw [Nat.cast_ofNat] at scale
  rw [toRat, unitsPerOne, mul_assoc, scale, scaled, units]
  split <;> simp

end Binary64

namespace Json.Number

variable {n : Number} {i : Int}

def toRat : Number → ℚ
  | int n => n
  | float x => x.toRat

theorem toRat_mul_unitsPerOne (n : Number) : n.toRat * Binary64.unitsPerOne = n.scaled := by
  cases n with
  | int n => rw [toRat, scaled, Int.cast_mul, Int.cast_natCast]
  | float x => exact x.toRat_mul_unitsPerOne

theorem toRat_eq_intCast_iff : n.toRat = i ↔ n.scaled = i * Binary64.unitsPerOne := by
  have one : (Binary64.unitsPerOne : ℚ) ≠ 0 :=
    Nat.cast_ne_zero.mpr (Nat.ne_of_gt Binary64.unitsPerOne_pos)
  rw [← mul_left_inj' one, toRat_mul_unitsPerOne]
  exact_mod_cast Iff.rfl

/-- A number is read as the integer that it stands for, when this has 64 bits with sign. -/
theorem toInt64?_eq_some_iff_toRat :
    n.toInt64? = some i ↔ n.toRat = i ∧ -2 ^ 63 ≤ i ∧ i ≤ 2 ^ 63 - 1 := by
  rw [toInt64?_eq_some_iff, toRat_eq_intCast_iff, and_comm]
  rfl

end Json.Number

namespace Value

variable {strictness : Strictness} {path : Path} {n : Json.Number} {value : Value}

theorem decodeAt_int64_eq_ok_iff :
    decodeAt strictness .int64 path (.number n) = .ok value ↔
      ∃ i, n.toInt64? = some i ∧ value = int i := by
  unfold decodeAt
  cases read : n.toInt64? with
  | none => simp [isMarker, Json.isNull, read]
  | some i => simp [isMarker, Json.isNull, read, eq_comm]

theorem decodeAt_int64_eq_error_iff :
    decodeAt strictness .int64 path (.number n) =
      .error (.typeMismatch path "int64" "number") ↔ n.toInt64? = none := by
  unfold decodeAt
  cases read : n.toInt64? <;> simp [isMarker, Json.isNull, read]

/-- A number is decoded to the integer of 64 bits with sign that it stands for, and it is a
mismatch where there is none. -/
theorem int64_is_decoded_exactly (strictness : Strictness) (path : Path) (n : Json.Number) :
    (∀ value, decodeAt strictness .int64 path (.number n) = .ok value ↔
      ∃ i : Int, (n.toRat = i ∧ -2 ^ 63 ≤ i ∧ i ≤ 2 ^ 63 - 1) ∧ value = int i) ∧
    (decodeAt strictness .int64 path (.number n) =
        .error (.typeMismatch path "int64" "number") ↔
      ¬ ∃ i : Int, n.toRat = i ∧ -2 ^ 63 ≤ i ∧ i ≤ 2 ^ 63 - 1) := by
  refine ⟨fun value => ?_, ?_⟩
  · rw [decodeAt_int64_eq_ok_iff]
    exact exists_congr fun i => and_congr_left' Json.Number.toInt64?_eq_some_iff_toRat
  · rw [decodeAt_int64_eq_error_iff, Option.eq_none_iff_forall_ne_some, not_exists]
    exact forall_congr' fun i => not_congr Json.Number.toInt64?_eq_some_iff_toRat

end Value
end ProviderKit
