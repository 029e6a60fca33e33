import ProviderKit.Json.Basic
import ProviderKit.Number.Shortest

/-!
# Writing JSON

Documents are written without spaces, members in key order.  A string escapes
the quote, the backslash and the control characters below the space, the common
ones by their letter and the rest by four hexadecimal digits.  Everything else
stands for itself.
-/

namespace ProviderKit
namespace Json

def hexDigit (n : Nat) : Char :=
  Nat.digitChar (n % 16)

/-- How a character is written inside a string. -/
def escapeChar (c : Char) : List Char :=
  if c = '"' then ['\\', '"']
  else if c = '\\' then ['\\', '\\']
  else if c = '\x08' then ['\\', 'b']
  else if c = '\x0c' then ['\\', 'f']
  else if c = '\n' then ['\\', 'n']
  else if c = '\r' then ['\\', 'r']
  else if c = '\t' then ['\\', 't']
  else if c < ' ' then ['\\', 'u', '0', '0', hexDigit (c.toNat / 16), hexDigit c.toNat]
  else [c]

def renderString (s : String) : List Char :=
  '"' :: s.toList.flatMap escapeChar ++ ['"']

/-- Doubles are positional from a millionth part of ten up to sixteen digits before
the point, and have an exponent with its sign otherwise. -/
def doubleFormat : DecimalFormat where
  leastPositional := -5
  greatestPositional := 15
  plus := "+"

def Number.text : Number → String
  | .int n => decimalText n
  | .float x => doubleFormat.text x

mutual

/-- The characters of a document. -/
def render : Json → List Char
  | null => "null".toList
  | bool true => "true".toList
  | bool false => "false".toList
  | number n => n.text.toList
  | string s => renderString s
  | array [] => ['[', ']']
  | array (x :: xs) => '[' :: x.render ++ renderItems xs
  | object [] => ['\x7b', '\x7d']
  | object ((k, x) :: xs) => '\x7b' :: renderString k ++ ':' :: x.render ++ renderMembers xs

/-- The items after the first, each behind a comma, and the closing bracket. -/
def renderItems : List Json → List Char
  | [] => [']']
  | x :: xs => ',' :: x.render ++ renderItems xs

/-- The members after the first, each behind a comma, and the closing brace. -/
def renderMembers : List (String × Json) → List Char
  | [] => ['\x7d']
  | (k, x) :: xs => ',' :: renderString k ++ ':' :: x.render ++ renderMembers xs

end

/-- The compact text of a document. -/
def compact (document : Json) : String :=
  String.ofList document.render

end Json
end ProviderKit
