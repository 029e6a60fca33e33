import ProviderKit.Json.Basic

/-!
# Reading JSON

The grammar is strict: four space characters, no comments, no trailing commas,
no leading zeros, and nothing behind the document.  Arrays and objects nest up
to a limit.  A string holds no raw control character, and an escaped half of a
surrogate pair is rejected unless the other half follows.

`parseAsWritten` keeps the members of an object in the order of the text, repeated
names included.  `parse` brings every object into key order, where the last of
several members with one name stays.

The recursion descends on a fuel that starts above the length of the text.  Each
call reads at least one character before the next, so the fuel is never the
reason for a rejection.
-/

namespace ProviderKit
namespace Json

/-- Why a text is not a document. -/
inductive ParseError where
  /-- The bytes are not UTF-8. -/
  | notText
  /-- The text does not follow the grammar. -/
  | malformed
  /-- Characters follow the document. -/
  | trailing
  /-- Arrays and objects nest too deeply. -/
  | tooDeep
  /-- A number exceeds every finite double. -/
  | outOfRange
deriving DecidableEq

def ParseError.message : ParseError → String
  | notText => "the document is not valid UTF-8"
  | malformed => "the document is malformed"
  | trailing => "characters follow the document"
  | tooDeep => "arrays and objects nest too deeply"
  | outOfRange => "a number is out of range"

/-- How deep arrays and objects may nest in a document. -/
def maxDepth : Nat := 127

/-- The outcome of reading.  A step returns its result and the rest of the text. -/
abbrev Reading := Except ParseError

/-- The characters that may stand between tokens. -/
def isSpace (c : Char) : Bool :=
  c == ' ' || c == '\t' || c == '\n' || c == '\r'

def skipSpace (text : List Char) : List Char :=
  text.dropWhile isSpace

/-- The value of a hexadecimal digit in either case. -/
def hexValue? (c : Char) : Option Nat :=
  if '0' ≤ c ∧ c ≤ '9' then some (c.toNat - '0'.toNat)
  else if 'a' ≤ c ∧ c ≤ 'f' then some (c.toNat - 'a'.toNat + 10)
  else if 'A' ≤ c ∧ c ≤ 'F' then some (c.toNat - 'A'.toNat + 10)
  else none

/-- The number that four hexadecimal digits spell. -/
def hexUnit? (a b c d : Char) : Option Nat := do
  let a ← hexValue? a
  let b ← hexValue? b
  let c ← hexValue? c
  let d ← hexValue? d
  some (((a * 16 + b) * 16 + c) * 16 + d)

/-- The character that a letter behind a backslash stands for. -/
def unescape? : Char → Option Char
  | '"' => some '"'
  | '\\' => some '\\'
  | '/' => some '/'
  | 'b' => some '\x08'
  | 'f' => some '\x0c'
  | 'n' => some '\n'
  | 'r' => some '\r'
  | 't' => some '\t'
  | _ => none

/-- Whether a number is the first half of a surrogate pair. -/
def isLeadingHalf (unit : Nat) : Bool :=
  0xD800 ≤ unit && unit < 0xDC00

/-- Whether a number is the second half of a surrogate pair. -/
def isTrailingHalf (unit : Nat) : Bool :=
  0xDC00 ≤ unit && unit < 0xE000

def pairedChar (leading trailing : Nat) : Char :=
  Char.ofNat (0x10000 + (leading - 0xD800) * 0x400 + (trailing - 0xDC00))

/-- The rest of a string behind its opening quote.  The characters read so far stand
in reverse order. -/
def readString (read : List Char) : List Char → Reading (String × List Char)
  | [] => .error .malformed
  | '"' :: rest => .ok (String.ofList read.reverse, rest)
  | '\\' :: 'u' :: a :: b :: c :: d :: rest =>
    match hexUnit? a b c d with
    | none => .error .malformed
    | some unit =>
      if isLeadingHalf unit then
        match rest with
        | '\\' :: 'u' :: e :: f :: g :: h :: rest =>
          match hexUnit? e f g h with
          | none => .error .malformed
          | some other =>
            if isTrailingHalf other then readString (pairedChar unit other :: read) rest
            else .error .malformed
        | _ => .error .malformed
      else if isTrailingHalf unit then .error .malformed
      else readString (Char.ofNat unit :: read) rest
  | '\\' :: c :: rest =>
    match unescape? c with
    | some plain => readString (plain :: read) rest
    | none => .error .malformed
  | '\\' :: [] => .error .malformed
  | c :: rest => if c < ' ' then .error .malformed else readString (c :: read) rest

/-- The digits before the point: a zero alone, or digits that start otherwise. -/
def readWhole (text : List Char) : Reading (List Digit × List Char) :=
  match spanDigits text with
  | ([], _) => .error .malformed
  | (first :: more, rest) =>
    if first = 0 ∧ more ≠ [] then .error .malformed else .ok (first :: more, rest)

/-- A point and the digits behind it; no digits when there is no point. -/
def readFraction : List Char → Reading (List Digit × List Char)
  | '.' :: text =>
    match spanDigits text with
    | ([], _) => .error .malformed
    | (digits, rest) => .ok (digits, rest)
  | text => .ok ([], text)

def readExponentDigits (text : List Char) : Reading (Nat × List Char) :=
  match spanDigits text with
  | ([], _) => .error .malformed
  | (digits, rest) => .ok (natOfDigits digits, rest)

/-- An exponent behind its letter, with or without a sign. -/
def readSignedExponent : List Char → Reading (Int × List Char)
  | '+' :: text => do let (n, rest) ← readExponentDigits text; .ok ((n : Int), rest)
  | '-' :: text => do let (n, rest) ← readExponentDigits text; .ok (-(n : Int), rest)
  | text => do let (n, rest) ← readExponentDigits text; .ok ((n : Int), rest)

def readExponent : List Char → Reading (Option Int × List Char)
  | 'e' :: text => do let (n, rest) ← readSignedExponent text; .ok (some n, rest)
  | 'E' :: text => do let (n, rest) ← readSignedExponent text; .ok (some n, rest)
  | text => .ok (none, text)

/-- A number behind its sign. -/
def readMagnitude (negative : Bool) (text : List Char) : Reading (DecimalLiteral × List Char) := do
  let (whole, text) ← readWhole text
  let (fraction, text) ← readFraction text
  let (exponent, text) ← readExponent text
  .ok (⟨negative, whole, fraction, exponent⟩, text)

def readLiteral : List Char → Reading (DecimalLiteral × List Char)
  | '-' :: text => readMagnitude true text
  | text => readMagnitude false text

def readNumber (text : List Char) : Reading (Json × List Char) := do
  let (literal, rest) ← readLiteral text
  match Number.ofLiteral? literal with
  | some n => .ok (.number n, rest)
  | none => .error .outOfRange

mutual

/-- A document with spaces before it. -/
def readValue (fuel depth : Nat) (text : List Char) : Reading (Json × List Char) :=
  match fuel with
  | 0 => .error .malformed
  | fuel + 1 =>
    match skipSpace text with
    | 'n' :: 'u' :: 'l' :: 'l' :: rest => .ok (.null, rest)
    | 't' :: 'r' :: 'u' :: 'e' :: rest => .ok (.bool true, rest)
    | 'f' :: 'a' :: 'l' :: 's' :: 'e' :: rest => .ok (.bool false, rest)
    | '"' :: rest => do let (s, rest) ← readString [] rest; .ok (.string s, rest)
    | '[' :: rest =>
      match depth with
      | 0 => .error .tooDeep
      | depth + 1 =>
        match skipSpace rest with
        | ']' :: rest => .ok (.array [], rest)
        | rest => do
          let (items, rest) ← readItems fuel depth rest
          .ok (.array items, rest)
    | '\x7b' :: rest =>
      match depth with
      | 0 => .error .tooDeep
      | depth + 1 =>
        match skipSpace rest with
        | '\x7d' :: rest => .ok (.object [], rest)
        | rest => do
          let (members, rest) ← readMembers fuel depth rest
          .ok (.object members, rest)
    | rest => readNumber rest

/-- The items of an array, of which there is at least one more, up to the bracket. -/
def readItems (fuel depth : Nat) (text : List Char) : Reading (List Json × List Char) :=
  match fuel with
  | 0 => .error .malformed
  | fuel + 1 => do
    let (item, rest) ← readValue fuel depth text
    match skipSpace rest with
    | ']' :: rest => .ok ([item], rest)
    | ',' :: rest => do let (items, rest) ← readItems fuel depth rest; .ok (item :: items, rest)
    | _ => .error .malformed

/-- The members of an object, of which there is at least one more, up to the brace. -/
def readMembers (fuel depth : Nat) (text : List Char) :
    Reading (List (String × Json) × List Char) :=
  match fuel with
  | 0 => .error .malformed
  | fuel + 1 =>
    match skipSpace text with
    | '"' :: rest => do
      let (name, rest) ← readString [] rest
      match skipSpace rest with
      | ':' :: rest => do
        let (value, rest) ← readValue fuel depth rest
        match skipSpace rest with
        | '\x7d' :: rest => .ok ([(name, value)], rest)
        | ',' :: rest => do
          let (members, rest) ← readMembers fuel depth rest
          .ok ((name, value) :: members, rest)
        | _ => .error .malformed
      | _ => .error .malformed
    | _ => .error .malformed

end

mutual

/-- The document with the members of every object in key order, the last of several
with one name. -/
def inKeyOrder : Json → Json
  | array items => array (inKeyOrderItems items)
  | object members => object (Entries.ofPairs (inKeyOrderMembers members))
  | other => other

/-- `inKeyOrder` on every item. -/
def inKeyOrderItems : List Json → List Json
  | [] => []
  | item :: items => item.inKeyOrder :: inKeyOrderItems items

/-- `inKeyOrder` on every member, whose places stay. -/
def inKeyOrderMembers : List (String × Json) → List (String × Json)
  | [] => []
  | (name, value) :: members => (name, value.inKeyOrder) :: inKeyOrderMembers members

end

/-- Read a whole text that nests up to a depth, keeping members as they are written. -/
def parseToDepth (depth : Nat) (text : String) : Reading Json := do
  let characters := text.toList
  let (document, rest) ← readValue (2 * characters.length + 2) depth characters
  if (skipSpace rest).isEmpty then .ok document else .error .trailing

/-- Read a whole text, keeping members as they are written. -/
def parseAsWritten (text : String) : Reading Json :=
  parseToDepth maxDepth text

/-- Read a whole text. -/
def parse (text : String) : Reading Json :=
  (parseAsWritten text).map inKeyOrder

def parseBytes (bytes : ByteArray) : Reading Json :=
  match String.fromUTF8? bytes with
  | some text => parse text
  | none => .error .notText

end Json
end ProviderKit
