import ProviderKit.Json.Parser

/-!
# Reading some members of an object

A reader that wants only some members of an object passes over the values of the
others.  A value that is passed over has to follow the grammar, and nothing more is
asked of it: a number may exceed every double, an escape may be half of a surrogate
pair, and arrays and objects may nest as deep as they like.  The names of all members
are read, because they decide what is wanted.

Passing over keeps the open brackets in a list and does not descend into them.  Each
step but the last reads at least one character, so the fuel, which starts above the
length of the text, is never the reason for a rejection.
-/

namespace ProviderKit
namespace Json

/-- A bracket that has been opened. -/
inductive Bracket where
  | square
  | curly
deriving DecidableEq

/-- What comes next while a value is passed over, inside open brackets of which the
innermost is the first. -/
inductive Passing where
  /-- A value has to come. -/
  | value (inside : List Bracket)
  /-- A value has just ended. -/
  | ended (inside : List Bracket)
deriving DecidableEq

/-- The rest of a text behind a string whose opening quote has been read. -/
def passString : List Char → Reading (List Char)
  | [] => .error .malformed
  | '"' :: rest => .ok rest
  | '\\' :: 'u' :: a :: b :: c :: d :: rest =>
    if (hexUnit? a b c d).isSome then passString rest else .error .malformed
  | '\\' :: c :: rest =>
    if (unescape? c).isSome then passString rest else .error .malformed
  | '\\' :: [] => .error .malformed
  | c :: rest => if c < ' ' then .error .malformed else passString rest

/-- The rest of a text behind the name of a member and its colon. -/
def passName (text : List Char) : Reading (List Char) :=
  match skipSpace text with
  | '"' :: rest => do
    match skipSpace (← passString rest) with
    | ':' :: rest => .ok rest
    | _ => .error .malformed
  | _ => .error .malformed

/-- Pass over a value without parts, or open a bracket. -/
def passStart (inside : List Bracket) (text : List Char) : Reading (Passing × List Char) :=
  match skipSpace text with
  | 'n' :: 'u' :: 'l' :: 'l' :: rest => .ok (.ended inside, rest)
  | 't' :: 'r' :: 'u' :: 'e' :: rest => .ok (.ended inside, rest)
  | 'f' :: 'a' :: 'l' :: 's' :: 'e' :: rest => .ok (.ended inside, rest)
  | '"' :: rest => do .ok (.ended inside, ← passString rest)
  | '[' :: rest =>
    match skipSpace rest with
    | ']' :: rest => .ok (.ended inside, rest)
    | rest => .ok (.value (.square :: inside), rest)
  | '\x7b' :: rest =>
    match skipSpace rest with
    | '\x7d' :: rest => .ok (.ended inside, rest)
    | rest => do .ok (.value (.curly :: inside), ← passName rest)
  | rest => do let (_, rest) ← readLiteral rest; .ok (.ended inside, rest)

/-- Pass over what follows a value in a bracket: a comma, behind which another value
has to come, or the end of the bracket. -/
def passEnd (innermost : Bracket) (outer : List Bracket) (text : List Char) :
    Reading (Passing × List Char) :=
  match innermost, skipSpace text with
  | .square, ']' :: rest => .ok (.ended outer, rest)
  | .square, ',' :: rest => .ok (.value (.square :: outer), rest)
  | .curly, '\x7d' :: rest => .ok (.ended outer, rest)
  | .curly, ',' :: rest => do .ok (.value (.curly :: outer), ← passName rest)
  | _, _ => .error .malformed

/-- The rest of a text behind the value that is passed over. -/
def passOver (fuel : Nat) (next : Passing) (text : List Char) : Reading (List Char) :=
  match fuel, next with
  | 0, _ => .error .malformed
  | _ + 1, .ended [] => .ok text
  | fuel + 1, .ended (innermost :: outer) => do
    let (next, rest) ← passEnd innermost outer text
    passOver fuel next rest
  | fuel + 1, .value inside => do
    let (next, rest) ← passStart inside text
    passOver fuel next rest

/-- The wanted members of an object, of which there is at least one more, up to the
brace. -/
def readSelection (wanted : String → Bool) (fuel depth : Nat) (text : List Char) :
    Reading (List (String × Json) × List Char) :=
  match fuel with
  | 0 => .error .malformed
  | fuel + 1 =>
    match skipSpace text with
    | '"' :: rest => do
      let (name, rest) ← readString [] rest
      match skipSpace rest with
      | ':' :: rest => do
        let (found, rest) ←
          if wanted name then do
            let (value, rest) ← readValue fuel depth rest
            pure ([(name, value)], rest)
          else do
            pure ([], ← passOver fuel (.value []) rest)
        match skipSpace rest with
        | '\x7d' :: rest => .ok (found, rest)
        | ',' :: rest => do
          let (members, rest) ← readSelection wanted fuel depth rest
          .ok (found ++ members, rest)
        | _ => .error .malformed
      | _ => .error .malformed
    | _ => .error .malformed

/-- Read a whole text, of an object only the wanted members, as they are written. -/
def parseSelection (wanted : String → Bool) (text : String) : Reading Json :=
  let characters := text.toList
  match skipSpace characters with
  | '\x7b' :: rest =>
    match skipSpace rest with
    | '\x7d' :: _ => parseAsWritten text
    | rest => do
      let (members, rest) ←
        readSelection wanted (2 * characters.length + 2) (maxDepth - 1) rest
      if (skipSpace rest).isEmpty then .ok (.object members) else .error .trailing
  | _ => parseAsWritten text

end Json
end ProviderKit
