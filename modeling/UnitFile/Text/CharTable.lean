/-!
# Text — tables of character ranges

A property of characters is given by the code points that have it, as closed
ranges in increasing order. `CharTable.contains` looks a character up and stops
at the first range that lies above it.
-/

namespace UnitFile

namespace Text

/-- Closed ranges of code points, in increasing order. -/
abbrev CharTable := List (Nat × Nat)

/-- Whether a code point lies in one of the ranges. -/
def CharTable.contains : CharTable → Nat → Bool
  | [], _ => false
  | (first, last) :: table, n =>
    if n < first then false else n ≤ last || CharTable.contains table n

end Text

end UnitFile
