import ProviderKit.Number.Binary64

/-!
# Decimal literals

A literal keeps its digits apart from its exponent.  Two readings turn it into
a double.  `nearest?` rounds the exact decimal once.  `scaled?` works with a
significand of at most 64 bits and two rounded steps: it takes digits while the
integer they spell fits, converts that integer, and then multiplies or divides
by a power of ten.  The second is the reading of JSON documents, and its result
may differ from the nearest double in the last place.
-/

namespace ProviderKit

abbrev Digit := Fin 10

def Digit.ofChar? (c : Char) : Option Digit :=
  let place := c.toNat - '0'.toNat
  if fits : c.isDigit ∧ place < 10 then some ⟨place, fits.2⟩ else none

def Digit.toChar (d : Digit) : Char :=
  Nat.digitChar d.val

/-- The number that digits spell in base ten. -/
def natOfDigits (digits : List Digit) : Nat :=
  digits.foldl (fun number digit => 10 * number + digit.val) 0

/-- The digits before and after the point, and the exponent when one is written.
An empty fraction means that no point is written. -/
structure DecimalLiteral where
  negative : Bool
  whole : List Digit
  fraction : List Digit
  exponent : Option Int
deriving DecidableEq

namespace DecimalLiteral

/-- Whether the literal has neither a point nor an exponent. -/
def isInteger (literal : DecimalLiteral) : Bool :=
  literal.fraction.isEmpty && literal.exponent.isNone

/-- The integer spelled by the digits before the point, with the sign. -/
def wholeValue (literal : DecimalLiteral) : Int :=
  let magnitude : Int := natOfDigits literal.whole
  if literal.negative then -magnitude else magnitude

/-- Extend a number below `2 ^ 64` by further digits as long as it stays below.
The result is the number and how many digits it took. -/
def takeDigits (number : Nat) : List Digit → Nat × Nat
  | [] => (number, 0)
  | digit :: rest =>
    if 10 * number + digit.val < 2 ^ 64 then
      let (extended, count) := takeDigits (10 * number + digit.val) rest
      (extended, count + 1)
    else (number, 0)

/-- The significand of at most 64 bits and the power of ten that goes with it.
A digit before the point that does not fit counts for its place only; one after
the point counts for nothing. -/
def significand (literal : DecimalLiteral) : Nat × Int :=
  let (leading, taken) := takeDigits 0 literal.whole
  let (number, places) := takeDigits leading literal.fraction
  (number, (literal.whole.length - taken : Nat) - (places : Int) + literal.exponent.getD 0)

/-- The largest power of ten that is a finite double. -/
def maxPower : Nat := 308

/-- Divide by a power of ten.  Powers beyond the largest finite one are taken in
steps, until the number is zero. -/
def divideByPower (x : Binary64) (power : Nat) : Option Binary64 :=
  if power ≤ maxPower then do x.div? (← Binary64.ofNat? (10 ^ power))
  else if x.isZero then some x
  else do
    let smaller ← x.div? (← Binary64.ofNat? (10 ^ maxPower))
    divideByPower smaller (power - maxPower)
termination_by power
decreasing_by simp only [maxPower] at *; omega

/-- Multiply by a power of ten; nothing when the result is too large. -/
def multiplyByPower (x : Binary64) (power : Nat) : Option Binary64 :=
  if power ≤ maxPower then do x.mul? (← Binary64.ofNat? (10 ^ power))
  else if x.isZero then some x
  else none

/-- The double of a literal, read through a significand of at most 64 bits.
Nothing when it exceeds every finite double. -/
def scaled? (literal : DecimalLiteral) : Option Binary64 := do
  let (number, exponent) := literal.significand
  let x ← Binary64.ofNat? number
  let magnitude ←
    if exponent < 0 then divideByPower x exponent.natAbs else multiplyByPower x exponent.natAbs
  some (if literal.negative then magnitude.neg else magnitude)

/-- The double nearest to the exact decimal; nothing when it is too large.  The
first tests keep the powers of ten small: with the digits before the point
counted, a decimal of 400 places on either side is out of the range of doubles. -/
def nearest? (literal : DecimalLiteral) : Option Binary64 :=
  let digits := literal.whole ++ literal.fraction
  let number := natOfDigits digits
  let exponent := literal.exponent.getD 0 - literal.fraction.length
  if number = 0 ∨ exponent + digits.length < -400 then
    some (Binary64.signedZero literal.negative)
  else if exponent < 0 then Binary64.ofQuotient? literal.negative number (10 ^ exponent.natAbs)
  else if 400 < exponent then none
  else Binary64.ofQuotient? literal.negative (number * 10 ^ exponent.natAbs) 1

end DecimalLiteral

/-- Split off the leading digits of a text. -/
def spanDigits : List Char → List Digit × List Char
  | [] => ([], [])
  | c :: rest =>
    match Digit.ofChar? c with
    | some digit => let (digits, remaining) := spanDigits rest; (digit :: digits, remaining)
    | none => ([], c :: rest)

/-- The digits behind a point; none when there is no point. -/
def spanFraction : List Char → List Digit × List Char
  | '.' :: rest => spanDigits rest
  | text => ([], text)

/-- The sign in front of a text: whether it is negative, and the rest. -/
def spanSign : List Char → Bool × List Char
  | '-' :: rest => (true, rest)
  | '+' :: rest => (false, rest)
  | text => (false, text)

/-- The integer that a whole text spells, with or without a sign. -/
def intOfText? (text : List Char) : Option Int :=
  let (negative, text) := spanSign text
  match spanDigits text with
  | (first :: more, []) =>
    let magnitude : Int := natOfDigits (first :: more)
    some (if negative then -magnitude else magnitude)
  | _ => none

/-- The exponent behind its letter; none when there is nothing, and no result when
there is something else. -/
def exponentOfText? : List Char → Option (Option Int)
  | [] => some none
  | c :: text => if c = 'e' ∨ c = 'E' then (intOfText? text).map some else none

/-- The literal that a whole text is.  There has to be a digit before or behind the
point. -/
def DecimalLiteral.ofText? (text : List Char) : Option DecimalLiteral := do
  let (negative, text) := spanSign text
  let (whole, text) := spanDigits text
  let (fraction, text) := spanFraction text
  let exponent ← exponentOfText? text
  if whole.isEmpty && fraction.isEmpty then none
  else some ⟨negative, whole, fraction, exponent⟩

def decimalText (n : Int) : String :=
  if n < 0 then "-" ++ Nat.repr n.natAbs else Nat.repr n.natAbs

end ProviderKit
