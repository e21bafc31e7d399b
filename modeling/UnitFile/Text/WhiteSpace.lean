import UnitFile.Text.CharTable
/-!
# Text — white space

The characters with the Unicode property White_Space. They are what is stripped
from both ends of a dialect name and what may stand before a region marker.
-/

namespace UnitFile

namespace Text

/-- The characters with the property White_Space. -/
def whiteSpace : CharTable :=
  [(0x9, 0xD), (0x20, 0x20), (0x85, 0x85), (0xA0, 0xA0), (0x1680, 0x1680), (0x2000, 0x200A),
   (0x2028, 0x2029), (0x202F, 0x202F), (0x205F, 0x205F), (0x3000, 0x3000)]

/-- Whether a character is white space. -/
def isWhiteSpace (c : Char) : Bool :=
  whiteSpace.contains c.toNat

/-- A text without the white space at its two ends. -/
def trim (cs : List Char) : List Char :=
  ((cs.dropWhile isWhiteSpace).reverse.dropWhile isWhiteSpace).reverse

end Text

end UnitFile
