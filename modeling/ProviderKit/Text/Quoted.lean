import ProviderKit.Text.Printable

/-!
# Quoted text

Keys inside a path are shown in quotes, in a form that always ends where the
closing quote stands: quotes and backslashes are escaped, a few controls have a
letter, and a character that is not shown as itself is spelled by its code point
in hexadecimal between braces.
-/

namespace ProviderKit
namespace Text

/-- How one character is written between quotes. -/
def quoteChar (c : Char) : List Char :=
  if c = '\x00' then ['\\', '0']
  else if c = '\t' then ['\\', 't']
  else if c = '\n' then ['\\', 'n']
  else if c = '\r' then ['\\', 'r']
  else if c = '"' then ['\\', '"']
  else if c = '\\' then ['\\', '\\']
  else if isShown c then [c]
  else ['\\', 'u', '\x7b'] ++ Nat.toDigits 16 c.toNat ++ ['\x7d']

/-- A text between quotes. -/
def quoted (text : String) : String :=
  String.ofList ('"' :: text.toList.flatMap quoteChar ++ ['"'])

/-- Quoted texts in brackets, separated by a comma and a space. -/
def quotedList (texts : List String) : String :=
  "[" ++ ", ".intercalate (texts.map quoted) ++ "]"

end Text
end ProviderKit
