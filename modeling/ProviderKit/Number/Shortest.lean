import ProviderKit.Number.Decimal

/-!
# The shortest decimal of a double

The decimals that read back as a double fill an interval around it, which
contains its ends exactly when the significand is even.  On the grid of
decimals with `n` digits only the two neighbours of the exact value have to be
tested.  The first `n` with a neighbour inside the interval gives the shortest
decimal, and of two neighbours inside it the nearer one is taken, a tie going to
the even coefficient.

Everything is exact: lengths are natural numbers of halves of `2 ^ -1074`, so
the midpoints between neighbouring doubles are integers too.
-/

namespace ProviderKit

/-- A positive decimal `coefficient · 10 ^ exponent`. -/
structure ScaledDecimal where
  coefficient : Nat
  exponent : Int
deriving DecidableEq

namespace Binary64

/-- How many half units make one. -/
def halvesPerOne : Nat := 2 * unitsPerOne

/-- The lower end of the interval that rounds to the magnitude, in half units.
Below a power of two the doubles lie twice as close. -/
def lowerEnd (x : Binary64) : Nat :=
  if x.significand = 2 ^ 52 ∧ 0 < x.shift then 2 * x.units - 2 ^ (x.shift - 1)
  else 2 * x.units - 2 ^ x.shift

/-- The upper end of that interval, in half units. -/
def upperEnd (x : Binary64) : Nat :=
  2 * x.units + 2 ^ x.shift

/-- Whether `coefficient · 10 ^ exponent` rounds to the magnitude. -/
def readsBack (x : Binary64) (decimal : ScaledDecimal) : Bool :=
  let scale := 10 ^ (-decimal.exponent).toNat
  let value := decimal.coefficient * 10 ^ decimal.exponent.toNat * halvesPerOne
  if x.significand % 2 = 0 then
    decide (x.lowerEnd * scale ≤ value ∧ value ≤ x.upperEnd * scale)
  else decide (x.lowerEnd * scale < value ∧ value < x.upperEnd * scale)

/-- The exponent of the leading decimal digit of a nonzero magnitude.  The
smallest double exceeds `10 ^ -330`, so the scaled integer is not zero. -/
def leadingPlace (x : Binary64) : Int :=
  ((Nat.toDigits 10 (x.units * 10 ^ 330 / unitsPerOne)).length : Int) - 331

/-- The neighbour of the magnitude on the grid of decimals with a given number of
digits that reads back, the nearer one when both do. -/
def neighbour? (x : Binary64) (digits : Nat) : Option ScaledDecimal :=
  let exponent := x.leadingPlace - digits + 1
  let amount := x.units * 10 ^ (-exponent).toNat
  let spacing := unitsPerOne * 10 ^ exponent.toNat
  let below : ScaledDecimal := ⟨amount / spacing, exponent⟩
  let above : ScaledDecimal := ⟨amount / spacing + 1, exponent⟩
  match x.readsBack below, x.readsBack above with
  | true, true => some ⟨roundedQuotient amount spacing, exponent⟩
  | true, false => some below
  | false, true => some above
  | false, false => none

/-- The shortest decimal that reads back as a nonzero magnitude.  Seventeen digits
always suffice; the exact decimal stands behind them only to make the function
total. -/
def shortest (x : Binary64) : ScaledDecimal :=
  ((List.range' 1 17).findSome? x.neighbour?).getD ⟨x.units * 5 ^ 1074, -1074⟩

end Binary64

/-- The number of places from which on a decimal is written with an exponent. -/
structure DecimalFormat where
  /-- The smallest exponent of the leading digit that is written positionally. -/
  leastPositional : Int
  /-- The largest exponent of the leading digit that is written positionally. -/
  greatestPositional : Int
  /-- The sign written before an exponent that is not negative. -/
  plus : String

namespace DecimalFormat

/-- The text of digits, the first of which stands at the given place.  Positional
text always has a point with a digit on either side; with an exponent there is a
point only before further digits. -/
def render (format : DecimalFormat) (digits : List Char) (place : Int) : String :=
  if place < format.leastPositional ∨ format.greatestPositional < place then
    let sign := if place < 0 then "-" else format.plus
    let fraction := digits.drop 1
    let point := if fraction.isEmpty then [] else ['.']
    String.ofList (digits.take 1 ++ point ++ fraction) ++ "e" ++ sign ++ Nat.repr place.natAbs
  else if place < 0 then
    "0." ++ String.ofList (List.replicate (place.natAbs - 1) '0' ++ digits)
  else
    let count := place.toNat + 1
    let whole := digits.take count ++ List.replicate (count - digits.length) '0'
    let fraction := if digits.length ≤ count then ['0'] else digits.drop count
    String.ofList (whole ++ ['.'] ++ fraction)

/-- The text of a double: its sign and the shortest digits that read back. -/
def text (format : DecimalFormat) (x : Binary64) : String :=
  let sign := if x.negative then "-" else ""
  if x.isZero then sign ++ format.render ['0'] 0
  else
    let decimal := x.shortest
    let all := Nat.toDigits 10 decimal.coefficient
    let place := decimal.exponent + (all.length : Int) - 1
    let digits := (all.reverse.dropWhile (· == '0')).reverse
    sign ++ format.render digits place

end DecimalFormat
end ProviderKit
