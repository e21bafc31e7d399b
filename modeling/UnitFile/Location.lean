/-!
# Locations and ranges

A location names one place of a text three times over: by byte offset, by line
and by the byte column within that line, all counted from zero. A range is a
start and a stop, the stop excluded. Locations are ordered by offset, then line,
then column, so that ranges of unrelated origin still have a bounding box.
-/

namespace UnitFile

/-- A place in a text. -/
structure Location where
  offset : Nat := 0
  line : Nat := 0
  column : Nat := 0
deriving DecidableEq

namespace Location

/-- Offset first, then line, then column. -/
protected def Lt (a b : Location) : Prop :=
  a.offset < b.offset ∨
    (a.offset = b.offset ∧ (a.line < b.line ∨ (a.line = b.line ∧ a.column < b.column)))

instance : LT Location := ⟨Location.Lt⟩

instance (a b : Location) : Decidable (a < b) :=
  inferInstanceAs (Decidable (_ ∨ _))

/-- How two locations are ordered. -/
def order (a b : Location) : Ordering :=
  if a < b then .lt else if a = b then .eq else .gt

/-- The place right after the character `c` at `l`. -/
def after (l : Location) (c : Char) : Location :=
  ⟨l.offset + c.utf8Size, l.line, l.column + c.utf8Size⟩

/-- The start of the line that follows a break of the given width at `l`. -/
def nextLine (l : Location) (width : Nat) : Location :=
  ⟨l.offset + width, l.line + 1, 0⟩

/-- The shown form of a location: `line:column`. -/
def shown (l : Location) : String :=
  s!"{l.line}:{l.column}"

end Location

/-- A part of a text, from `start` up to but without `stop`. -/
structure Range where
  start : Location := {}
  stop : Location := {}
deriving DecidableEq

namespace Range

/-- The number of bytes covered; a range that runs backwards covers none. -/
def length (r : Range) : Nat :=
  r.stop.offset - r.start.offset

/-- Whether no byte is covered. -/
def isEmpty (r : Range) : Bool :=
  r.stop.offset ≤ r.start.offset

/-- Whether an offset touches the range. The stop counts as inside: a cursor
right after a word still refers to it. -/
def touches (r : Range) (offset : Nat) : Bool :=
  r.start.offset ≤ offset && offset ≤ r.stop.offset

/-- Whether two ranges share a byte. -/
def overlaps (r s : Range) : Bool :=
  r.start.offset < s.stop.offset && s.start.offset < r.stop.offset

/-- The least range around two ranges, in the order of locations. -/
def hull (r s : Range) : Range :=
  ⟨if s.start < r.start then s.start else r.start,
    if r.stop < s.stop then s.stop else r.stop⟩

/-- The least range around all ranges of a list. -/
def boundingBox : List Range → Option Range
  | [] => none
  | r :: rs => some (rs.foldl hull r)

/-- The shown form of a range: both ends by line and column. -/
def shown (r : Range) : String :=
  s!"{r.start.shown}..{r.stop.shown}"

end Range

end UnitFile
