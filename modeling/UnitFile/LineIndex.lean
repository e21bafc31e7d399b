import UnitFile.Text.Bytes
import UnitFile.Location
/-!
# The line index of a text

`LineIndex.ofChars` records where each line of a text starts. With it an offset
is turned into a location (`locate`) and a line with a column back into an
offset (`offsetAt`). A line ends before its `\n`; a `\r` in front of the `\n`
still counts as part of the line. Both questions can fall outside the text, and
`LocationError` says in which way.
-/

namespace UnitFile

/-- Why an offset or a line with a column names no place of a text. -/
inductive LocationError where
  | lineOutOfBounds (line lineCount : Nat)
  | columnOutOfBounds (line column lineLength : Nat)
  | offsetOutOfBounds (offset size : Nat)
deriving DecidableEq

/-- The wording of a location error. -/
def LocationError.message : LocationError → String
  | .lineOutOfBounds line lineCount =>
    s!"line {line} is outside the document ({lineCount} lines)"
  | .columnOutOfBounds line column lineLength =>
    s!"column {column} is outside line {line} ({lineLength} bytes)"
  | .offsetOutOfBounds offset size =>
    s!"offset {offset} is outside the document ({size} bytes)"

/-- The wording of a location error that the caller had promised away. -/
def LocationError.violation (e : LocationError) : String :=
  s!"location invariant violated: {e.message}"

/-- Where the lines of a text start, and how long the text is. -/
structure LineIndex where
  starts : List Nat
  size : Nat
deriving DecidableEq

namespace LineIndex

/-- The offsets right after each `\n` of a text that begins at `offset`. -/
def startsAfter (offset : Nat) : List Char → List Nat
  | [] => []
  | c :: cs =>
    if c = '\n' then
      (offset + 1) :: startsAfter (offset + 1) cs
    else
      startsAfter (offset + c.utf8Size) cs

/-- The line index of a text. -/
def ofChars (cs : List Char) : LineIndex :=
  ⟨0 :: startsAfter 0 cs, Text.byteLength cs⟩

/-- The number of lines; a text that ends in a break has an empty last one. -/
def lineCount (ix : LineIndex) : Nat :=
  ix.starts.length

/-- The offset at which a line starts. -/
def lineStart? (ix : LineIndex) (line : Nat) : Option Nat :=
  ix.starts[line]?

/-- The offset of the break that ends a line, or the end of the text. -/
def lineStop (ix : LineIndex) (line : Nat) : Nat :=
  match ix.starts[line + 1]? with
  | some next => next - 1
  | none => ix.size

/-- The location of an offset: its line is the last one to start at or before
it. -/
def locate (ix : LineIndex) (offset : Nat) : Except LocationError Location :=
  if ix.size < offset then
    .error (.offsetOutOfBounds offset ix.size)
  else
    let begun := ix.starts.takeWhile (· ≤ offset)
    .ok ⟨offset, begun.length - 1, offset - begun.getLast?.getD 0⟩

/-- The offset of a column of a line. The place right before the break is the
last of its line. -/
def offsetAt (ix : LineIndex) (line column : Nat) : Except LocationError Nat :=
  match ix.lineStart? line with
  | none => .error (.lineOutOfBounds line ix.lineCount)
  | some start =>
    let lineLength := ix.lineStop line - start
    if lineLength < column then
      .error (.columnOutOfBounds line column lineLength)
    else
      .ok (start + column)

/-- The range between two offsets. -/
def rangeOf (ix : LineIndex) (start stop : Nat) : Except LocationError Range := do
  return ⟨← ix.locate start, ← ix.locate stop⟩

end LineIndex

end UnitFile
