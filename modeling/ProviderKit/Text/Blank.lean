/-!
# Blank characters

The characters with the property `White_Space`, and the text without them at its ends.
-/

namespace ProviderKit
namespace Text

/-- Whether a character has the property `White_Space`. -/
def isBlank (c : Char) : Bool :=
  let point := c.toNat
  (0x9 ≤ point && point ≤ 0xd) || point == 0x20 || point == 0x85 || point == 0xa0 ||
  point == 0x1680 || (0x2000 ≤ point && point ≤ 0x200a) || point == 0x2028 ||
  point == 0x2029 || point == 0x202f || point == 0x205f || point == 0x3000

/-- The text without blank characters at its start and its end. -/
def trimBlanks (text : List Char) : List Char :=
  ((text.dropWhile isBlank).reverse.dropWhile isBlank).reverse

end Text
end ProviderKit
