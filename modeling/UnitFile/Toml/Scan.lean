import UnitFile.Text.Symbol
/-!
# TOML — reading from the front of a text

A scan takes characters from the front of a text and gives a result, or refuses
the text. Here are the scans that know nothing of values: single characters, blanks,
comments and the ends of lines.
-/

namespace UnitFile

namespace Toml

/-- A scan over the rest of a text. -/
abbrev Scan := StateT (List Char) Option

namespace Scan

/-- Refuses the text. -/
def refuse {α : Type} : Scan α :=
  fun _ => none

/-- The rest of the text. -/
def rest : Scan (List Char) :=
  get

/-- Takes a result and the rest after it from a function on the rest. -/
def ofFunction {α : Type} (f : List Char → Option (α × List Char)) : Scan α :=
  f

/-- The next character, without taking it. -/
def peek : Scan (Option Char) := do
  return (← rest).head?

/-- Takes the longest run of characters of a class. -/
def takeRun (p : Char → Bool) : Scan (List Char) :=
  fun cs => some (cs.takeWhile p, cs.dropWhile p)

/-- Takes a given text if it comes next, and says whether it did. -/
def accept (text : String) : Scan Bool :=
  fun cs =>
    if text.toList.isPrefixOf cs then some (true, cs.drop text.toList.length)
    else some (false, cs)

/-- Takes a given text. -/
def expect (text : String) : Scan Unit := do
  if !(← accept text) then refuse

/-- Skips spaces and tabs. -/
def blanks : Scan Unit := do
  let _ ← takeRun isBlank

/-- Whether a character may stand in a comment or in a string: no control
characters but the tab. -/
def isTextChar (c : Char) : Bool :=
  c == '\t' || (' ' ≤ c && c ≠ '\x7f')

/-- Skips a comment, if one comes next. -/
def comment : Scan Unit := do
  if ← accept "#" then
    let _ ← takeRun isTextChar

/-- Takes a line break, if one comes next. -/
def lineBreak : Scan Bool := do
  if ← accept "\n" then return true
  accept "\r\n"

/-- Skips the rest of a line that holds nothing more than a comment, with its
break. -/
def endOfLine : Scan Unit := do
  blanks
  comment
  if !(← lineBreak) then
    if !(← rest).isEmpty then refuse

/-- Skips blanks, comments and line breaks. -/
def layout : Scan Unit := do
  let rec go : Nat → Scan Unit
    | 0 => return
    | fuel + 1 => do
      blanks
      comment
      if ← lineBreak then go fuel
  go ((← rest).length + 1)

end Scan

end Toml

end UnitFile
