/-!
# Finite binary64 numbers

A number is a sign, a significand below `2 ^ 53` and a shift, and stands for
`± significand · 2 ^ shift / 2 ^ 1074`.  Every finite double is an integer
multiple of `2 ^ -1074`, so `units` gives the exact magnitude as a natural
number and no operation below needs fractions.

Rounding is one operation: the quotient of two natural numbers goes to the
nearest double, a tie to the even significand.  Products, quotients and
conversions of integers are instances of it.
-/

namespace ProviderKit

/-- Powers are those of the type itself, also where they come with an algebraic structure. -/
@[default_instance 20000]
instance (priority := 2000) ownPower {α : Type} [NatPow α] : Pow α Nat :=
  instPowNat

/-- The quotient of two naturals rounded to the nearest integer, a tie going to
the even one. -/
def roundedQuotient (numerator denominator : Nat) : Nat :=
  let quotient := numerator / denominator
  let twice := 2 * (numerator % denominator)
  if twice < denominator then quotient
  else if twice = denominator ∧ quotient % 2 = 0 then quotient
  else quotient + 1

/-- A finite binary64 number.  Each magnitude has one significand and shift,
because a shifted significand uses all of its 53 bits. -/
structure Binary64 where
  negative : Bool
  significand : Nat
  shift : Nat
  canonical : significand < 2 ^ 53 ∧ shift ≤ 2045 ∧ (shift = 0 ∨ 2 ^ 52 ≤ significand)
deriving DecidableEq

namespace Binary64

/-- How many units of magnitude make one. -/
def unitsPerOne : Nat := 2 ^ 1074

/-- The magnitude in units of `2 ^ -1074`. -/
def units (x : Binary64) : Nat :=
  x.significand * 2 ^ x.shift

/-- The exact value in units of `2 ^ -1074`.  Both zeros have the value `0`. -/
def scaled (x : Binary64) : Int :=
  if x.negative then -(x.units : Int) else x.units

/-- Numeric equality, which identifies the two zeros. -/
def sameValue (x y : Binary64) : Bool :=
  x.scaled == y.scaled

theorem sameValue_iff {x y : Binary64} : x.sameValue y = true ↔ x.scaled = y.scaled := by
  simp [sameValue]

def signedZero (negative : Bool) : Binary64 :=
  ⟨negative, 0, 0, by decide⟩

def zero : Binary64 :=
  signedZero false

instance : Inhabited Binary64 := ⟨zero⟩

def isZero (x : Binary64) : Bool :=
  x.significand == 0

def neg (x : Binary64) : Binary64 :=
  { x with negative := !x.negative }

/-- The number with a given sign, when significand and shift are in range. -/
def ofParts? (negative : Bool) (significand shift : Nat) : Option Binary64 :=
  if fits : significand < 2 ^ 53 ∧ shift ≤ 2045 ∧ (shift = 0 ∨ 2 ^ 52 ≤ significand) then
    some ⟨negative, significand, shift, fits⟩
  else none

/-- The double nearest to a quotient, or nothing when it exceeds every finite
double.  The shift leaves 53 bits of the integral part; rounding may carry into
a fifty-fourth bit, and then the significand is halved exactly. -/
def ofQuotient? (negative : Bool) (numerator denominator : Nat) : Option Binary64 :=
  let amount := numerator * unitsPerOne
  let shift := (amount / denominator).log2 - 52
  let rounded := roundedQuotient amount (denominator * 2 ^ shift)
  if rounded = 2 ^ 53 then ofParts? negative (2 ^ 52) (shift + 1)
  else ofParts? negative rounded shift

def ofNat? (n : Nat) : Option Binary64 :=
  ofQuotient? false n 1

/-- The double nearest to an integer.  Zero has the positive sign. -/
def ofInt? (n : Int) : Option Binary64 :=
  ofQuotient? (n < 0) n.natAbs 1

def mul? (x y : Binary64) : Option Binary64 :=
  ofQuotient? (x.negative != y.negative) (x.units * y.units) (unitsPerOne * unitsPerOne)

def div? (x y : Binary64) : Option Binary64 :=
  ofQuotient? (x.negative != y.negative) x.units y.units

def isWhole (x : Binary64) : Bool :=
  x.units % unitsPerOne == 0

def truncated (x : Binary64) : Int :=
  x.scaled.tdiv unitsPerOne

def twoPow63 : Binary64 :=
  ⟨false, 2 ^ 52, 1085, by decide⟩

end Binary64
end ProviderKit
