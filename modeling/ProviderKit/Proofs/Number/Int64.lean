import ProviderKit.Json.Basic

/-!
# Numbers as integers of 64 bits

A number is read as the integer of 64 bits with sign that it equals, and not at all where there is
none.  Two conversions on the way there could go wrong at the limits.  An integer that is too large
is tried again as the nearest double; rounding does not lead below a power of two, so this double is
too large as well.  A whole double is cast, which would change what is out of range; but the limits
of the doubles, `-2 ^ 63` and `2 ^ 63`, let exactly those through that fit.
-/

namespace ProviderKit

theorem le_roundedQuotient (numerator denominator : Nat) :
    numerator / denominator ≤ roundedQuotient numerator denominator := by
  unfold roundedQuotient
  dsimp only
  split
  · exact Nat.le_refl _
  · split
    · exact Nat.le_refl _
    · exact Nat.le_succ _

namespace Binary64

variable {negative : Bool} {x : Binary64} {i n : Int}

theorem unitsPerOne_pos : 0 < unitsPerOne := by
  rw [unitsPerOne]
  generalize 1074 = exponent
  exact Nat.two_pow_pos exponent

theorem of_ofParts? {significand shift : Nat} (found : ofParts? negative significand shift = some x) :
    x.negative = negative ∧ x.units = significand * 2 ^ shift := by
  unfold ofParts? at found
  split at found
  · cases found
    exact ⟨rfl, rfl⟩
  · cases found

/-- Rounding does not lead below a power of two that the quotient reaches. -/
theorem of_ofQuotient? {numerator denominator place : Nat} (positive : 0 < denominator)
    (wide : 52 ≤ place) (reached : 2 ^ place * denominator ≤ numerator * unitsPerOne)
    (found : ofQuotient? negative numerator denominator = some x) :
    x.negative = negative ∧ 2 ^ place ≤ x.units := by
  unfold ofQuotient? at found
  dsimp only at found
  generalize numerator * unitsPerOne = amount at reached found
  have quotient : 2 ^ place ≤ amount / denominator := (Nat.le_div_iff_mul_le positive).mpr reached
  have present : amount / denominator ≠ 0 :=
    Nat.ne_of_gt (Nat.lt_of_lt_of_le (Nat.two_pow_pos place) quotient)
  have placed : place ≤ (amount / denominator).log2 := (Nat.le_log2 present).mpr quotient
  have leading := Nat.log2_self_le present
  generalize (amount / denominator).log2 = top at placed leading found
  -- The significand starts at the leading bit of the quotient, which is not rounded away.
  have parted : 2 ^ top = 2 ^ 52 * 2 ^ (top - 52) := by
    rw [← Nat.pow_add, Nat.add_sub_cancel' (Nat.le_trans wide placed)]
  have rounded : 2 ^ 52 ≤ roundedQuotient amount (denominator * 2 ^ (top - 52)) :=
    calc 2 ^ 52 ≤ amount / denominator / 2 ^ (top - 52) :=
          (Nat.le_div_iff_mul_le (Nat.two_pow_pos _)).mpr (parted ▸ leading)
      _ = amount / (denominator * 2 ^ (top - 52)) := Nat.div_div_eq_div_mul ..
      _ ≤ _ := le_roundedQuotient ..
  have reachesTop : 2 ^ place ≤ 2 ^ 52 * 2 ^ (top - 52) :=
    parted ▸ Nat.pow_le_pow_right (by decide) placed
  split at found
  · rcases of_ofParts? found with ⟨sign, units⟩
    have carried : 2 ^ (top - 52) ≤ 2 ^ (top - 52 + 1) :=
      Nat.pow_le_pow_right (by decide) (Nat.le_succ _)
    exact ⟨sign, units ▸ Nat.le_trans reachesTop (Nat.mul_le_mul_left _ carried)⟩
  · rcases of_ofParts? found with ⟨sign, units⟩
    exact ⟨sign, units ▸ Nat.le_trans reachesTop (Nat.mul_le_mul_right _ rounded)⟩

theorem scaled_of_negative (sign : x.negative = false) : x.scaled = x.units := by
  rw [scaled, sign]
  rfl

theorem scaled_neg (x : Binary64) : x.neg.scaled = -x.scaled := by
  unfold scaled
  cases sign : x.negative <;> simp [neg, sign, units]

theorem natAbs_scaled (x : Binary64) : x.scaled.natAbs = x.units := by
  unfold scaled
  split
  · rw [Int.natAbs_neg, Int.natAbs_natCast]
  · exact Int.natAbs_natCast _

theorem twoPow63_units : twoPow63.units = 2 ^ 63 * unitsPerOne := by
  have shift : twoPow63.shift = 11 + 1074 := rfl
  have significand : twoPow63.significand * 2 ^ 11 = 2 ^ 63 := rfl
  rw [units, shift, unitsPerOne]
  generalize 1074 = exponent
  rw [Nat.pow_add, ← Nat.mul_assoc, significand]

theorem twoPow63_scaled : twoPow63.scaled = 2 ^ 63 * unitsPerOne := by
  rw [scaled_of_negative rfl, twoPow63_units, Int.natCast_mul, Int.natCast_pow]
  rfl

/-- An integer from `2 ^ 63` on is rounded to a double from `2 ^ 63` on. -/
theorem twoPow63_le_of_ofInt? (large : 2 ^ 63 ≤ n) (found : ofInt? n = some x) :
    twoPow63.scaled ≤ x.scaled := by
  have sign : decide (n < 0) = false := by
    simp only [decide_eq_false_iff_not]
    omega
  have magnitude : 2 ^ 63 ≤ n.natAbs := by omega
  obtain ⟨place, wide, scale⟩ : ∃ place, 52 ≤ place ∧ 2 ^ place = 2 ^ 63 * unitsPerOne := by
    rw [unitsPerOne]
    generalize 1074 = exponent
    exact ⟨63 + exponent, by omega, Nat.pow_add ..⟩
  have reached : 2 ^ place * 1 ≤ n.natAbs * unitsPerOne := by
    rw [Nat.mul_one, scale]
    exact Nat.mul_le_mul_right _ magnitude
  rcases of_ofQuotient? Nat.one_pos wide reached found with ⟨same, units⟩
  rw [scaled_of_negative (same.trans sign), scaled_of_negative rfl, twoPow63_units]
  exact Int.ofNat_le.mpr (scale ▸ units)

/-- The greatest integer of 64 bits with sign is already rounded up to `2 ^ 63`. -/
example : ofInt? Json.Number.maxInt64 = some twoPow63 := by
  decide +kernel

theorem isWhole_iff : x.isWhole = true ↔ ∃ i : Int, x.scaled = i * unitsPerOne := by
  rw [isWhole, beq_iff_eq, ← Nat.dvd_iff_mod_eq_zero, ← natAbs_scaled, ← Int.ofNat_dvd_left]
  exact exists_congr fun i => by rw [Int.mul_comm]

theorem truncated_of_scaled (whole : x.scaled = i * unitsPerOne) : x.truncated = i := by
  rw [truncated, whole]
  exact Int.mul_tdiv_cancel _ (Int.natCast_ne_zero.mpr (Nat.ne_of_gt unitsPerOne_pos))

end Binary64

namespace Json.Number

variable {i n : Int} {x : Binary64}

/-- What is in range is cast to itself. -/
theorem castInt64_of_inRange (lower : minInt64 ≤ x.truncated) (upper : x.truncated ≤ maxInt64) :
    castInt64 x = x.truncated := by
  rw [castInt64]
  omega

/-- A double is read as the integer that it equals, when that is in range. -/
theorem wholeInt64?_eq_some_iff :
    wholeInt64? x = some i ↔
      (minInt64 ≤ i ∧ i ≤ maxInt64) ∧ x.scaled = i * Binary64.unitsPerOne := by
  have one : (0 : Int) < Binary64.unitsPerOne := Int.natCast_pos.mpr Binary64.unitsPerOne_pos
  -- For a whole double the limits of the doubles are those of the integers.
  have limits : ∀ {j : Int}, x.scaled = j * Binary64.unitsPerOne →
      (Binary64.twoPow63.neg.scaled ≤ x.scaled ∧ x.scaled < Binary64.twoPow63.scaled ↔
        minInt64 ≤ j ∧ j ≤ maxInt64) := by
    intro j whole
    rw [Binary64.scaled_neg, Binary64.twoPow63_scaled, whole, ← Int.neg_mul,
      Int.mul_le_mul_right one, Int.mul_lt_mul_right one, minInt64, maxInt64]
    omega
  unfold wholeInt64?
  constructor
  · intro read
    split at read
    · next passes =>
      rcases passes with ⟨isWhole, within⟩
      rcases Binary64.isWhole_iff.mp isWhole with ⟨j, whole⟩
      have inRange := (limits whole).mp within
      have same := Binary64.truncated_of_scaled whole
      rw [castInt64_of_inRange (same ▸ inRange.1) (same ▸ inRange.2), same] at read
      cases read
      exact ⟨inRange, whole⟩
    · cases read
  · rintro ⟨inRange, whole⟩
    have same := Binary64.truncated_of_scaled whole
    rw [if_pos ⟨Binary64.isWhole_iff.mpr ⟨i, whole⟩, (limits whole).mpr inRange⟩,
      castInt64_of_inRange (same ▸ inRange.1) (same ▸ inRange.2), same]

/-- The double nearest to an integer beyond the greatest one is out of range as well. -/
theorem toInt64?_int (n : Int) : toInt64? (.int n) = inInt64? n := by
  rw [toInt64?]
  split
  · rfl
  · next large =>
    have outside : inInt64? n = none := if_neg fun inRange => large inRange.2
    rw [outside, Option.bind_eq_none_iff]
    intro x found
    refine if_neg fun passes => ?_
    have beyond : Binary64.twoPow63.scaled ≤ x.scaled :=
      Binary64.twoPow63_le_of_ofInt? (by rw [maxInt64] at large; omega) found
    omega

/-- The exact value in units of `2 ^ -1074`, however the number is written. -/
def scaled : Number → Int
  | int n => n * Binary64.unitsPerOne
  | float x => x.scaled

theorem toInt64?_eq_some_iff {n : Number} :
    n.toInt64? = some i ↔
      (minInt64 ≤ i ∧ i ≤ maxInt64) ∧ n.scaled = i * Binary64.unitsPerOne := by
  cases n with
  | int m =>
      have one : (Binary64.unitsPerOne : Int) ≠ 0 :=
        Int.natCast_ne_zero.mpr (Nat.ne_of_gt Binary64.unitsPerOne_pos)
      rw [toInt64?_int, inInt64?_eq_some_iff, scaled, Int.mul_eq_mul_right_iff one]
      exact and_congr_left fun same => same ▸ Iff.rfl
  | float x => exact wholeInt64?_eq_some_iff

example : toInt64? (.float Binary64.twoPow63) = none ∧
    toInt64? (.float Binary64.twoPow63.neg) = some minInt64 ∧
    toInt64? (.float (.signedZero true)) = some 0 := by
  decide +kernel

theorem inInt64?_of_toInt64? {n : Number} (read : n.toInt64? = some i) : inInt64? i = some i :=
  inInt64?_eq_some_iff.mpr ⟨(toInt64?_eq_some_iff.mp read).1, rfl⟩

end Json.Number
end ProviderKit
