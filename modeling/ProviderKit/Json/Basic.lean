import ProviderKit.Entries
import ProviderKit.Number.Decimal

/-!
# JSON documents

Numbers keep the two ways of writing them apart: an integer literal in the range
of 64-bit words stays an integer, and any other literal is a double.  An integer
never equals a double, and the two zeros among the doubles are equal.

Objects hold their members as `Entries`, so a document has one value however its
members were ordered.
-/

namespace ProviderKit
namespace Json

inductive Number where
  | int (value : Int)
  | float (value : Binary64)
deriving DecidableEq

namespace Number

/-- Equality of numbers: exact among integers, numeric among doubles, and never
across the two. -/
def same : Number → Number → Bool
  | int m, int n => m == n
  | float x, float y => x.sameValue y
  | _, _ => false

theorem same_comm (m n : Number) : m.same n = n.same m := by
  cases m <;> cases n <;> simp [same, Binary64.sameValue, Bool.beq_comm]

def minInt64 : Int := -2 ^ 63

def maxInt64 : Int := 2 ^ 63 - 1

def maxUInt64 : Int := 2 ^ 64 - 1

/-- An integer when it lies in the range of 64 bits with sign. -/
def inInt64? (n : Int) : Option Int :=
  if minInt64 ≤ n ∧ n ≤ maxInt64 then some n else none

theorem inInt64?_eq_some_iff {n m : Int} :
    inInt64? n = some m ↔ (minInt64 ≤ n ∧ n ≤ maxInt64) ∧ n = m := by
  by_cases h : minInt64 ≤ n ∧ n ≤ maxInt64 <;> simp [inInt64?, h]

/-- The integer that a double becomes when it is cast to 64 bits with sign.  What is out of
range becomes the nearest limit. -/
def castInt64 (x : Binary64) : Int :=
  max minInt64 (min x.truncated maxInt64)

/-- The integer of a whole double in the range of 64 bits with sign.  The limits are those of
the doubles: the greatest integer is rounded up to `2 ^ 63`, which is out of range. -/
def wholeInt64? (x : Binary64) : Option Int :=
  if x.isWhole ∧ Binary64.twoPow63.neg.scaled ≤ x.scaled ∧ x.scaled < Binary64.twoPow63.scaled then
    some (castInt64 x)
  else none

/-- The integer of 64 bits with sign that a number is read as.  An integer beyond the greatest
one is tried again as the double nearest to it. -/
def toInt64? : Number → Option Int
  | int n => if n ≤ maxInt64 then inInt64? n else (Binary64.ofInt? n).bind wholeInt64?
  | float x => wholeInt64? x

/-- The integer of an integer number in the range of 64 bits with sign. -/
def asInt64? : Number → Option Int
  | int n => inInt64? n
  | float _ => none

/-- The double nearest to a number. -/
def toBinary64? : Number → Option Binary64
  | int n => Binary64.ofInt? n
  | float x => some x

/-- The number of a literal.  Integers beyond 64 bits become doubles, and so does
`-0`, whose sign an integer cannot keep.  Nothing when a double would be too
large. -/
def ofLiteral? (literal : DecimalLiteral) : Option Number :=
  let n := literal.wholeValue
  let fits := if literal.negative then minInt64 ≤ n ∧ n < 0 else n ≤ maxUInt64
  if literal.isInteger ∧ fits then some (int n)
  else literal.scaled?.map float

end Number
end Json

inductive Json where
  | null
  | bool (value : Bool)
  | number (value : Json.Number)
  | string (value : String)
  | array (items : List Json)
  | object (members : List (String × Json))

namespace Json

instance : Inhabited Json := ⟨null⟩

/-- What kind of document this is, in the words of diagnostics. -/
def typeName : Json → String
  | null => "null"
  | bool _ => "bool"
  | number _ => "number"
  | string _ => "string"
  | array _ => "array"
  | object _ => "object"

def isNull : Json → Bool
  | null => true
  | _ => false

def int (n : Int) : Json :=
  number (.int n)

/-- The member of an object; null for a missing member and for anything else. -/
def member (name : String) : Json → Json
  | object members => (Entries.find? name members).getD null
  | _ => null

mutual

/-- Equality of documents, up to the equality of their numbers. -/
def same : Json → Json → Bool
  | null, null => true
  | bool a, bool b => a == b
  | number m, number n => m.same n
  | string s, string t => s == t
  | array xs, array ys => sameItems xs ys
  | object xs, object ys => sameMembers xs ys
  | _, _ => false

def sameItems : List Json → List Json → Bool
  | [], [] => true
  | x :: xs, y :: ys => x.same y && sameItems xs ys
  | _, _ => false

def sameMembers : List (String × Json) → List (String × Json) → Bool
  | [], [] => true
  | (k, x) :: xs, (l, y) :: ys => k == l && x.same y && sameMembers xs ys
  | _, _ => false

end

end Json
end ProviderKit
