import UnitFile.Toml.Text
/-!
# TOML — dates and times

A date, a time of day or both, in which case a time zone may follow. What is read
is kept by its canonical text: `T` between date and time, `Z` in upper case,
fractions of a second cut to nine digits and without zeros at the end. How far
hours and time zones reach depends on where the text stands, and is given by a
`Clock`.
-/

namespace UnitFile

namespace Toml

/-- How far the hours of a day and the offsets of time zones reach. -/
structure Clock where
  /-- The last hour of a day. -/
  lastHour : Nat
  /-- Whether a time zone can be so many hours and minutes away. -/
  reaches : Nat → Nat → Bool

/-- The clock of a value: a day has 24 hours, and a time zone is less than a day
away. -/
def Clock.literal : Clock :=
  ⟨23, fun hours minutes => hours ≤ 23 && minutes ≤ 59⟩

/-- The clock of a text in a string: a day may end in hour 24, and a time zone is
at most a day away, its minutes counted as they are written. -/
def Clock.quoted : Clock :=
  ⟨24, fun hours minutes => 60 * hours + minutes ≤ 1440⟩

/-- The number at the front of a run, of a given number of digits, and the rest. -/
def fixedNumber? (count : Nat) (cs : List Char) : Option (Nat × List Char) :=
  let digits := cs.take count
  if digits.length = count ∧ digits.all Char.isDigit then
    some (numberOf 10 digits, cs.drop count)
  else
    none

/-- What is left after a given character. -/
def after? (c : Char) (cs : List Char) : Option (List Char) :=
  if cs.head? = some c then some cs.tail else none

/-- The number of days of a month. -/
def daysOfMonth (year month : Nat) : Nat :=
  if month = 2 then
    if (year % 4 = 0 ∧ year % 100 ≠ 0) ∨ year % 400 = 0 then 29 else 28
  else if month ∈ [4, 6, 9, 11] then 30
  else 31

/-- Reads a date: its text, and the rest. -/
def date? (cs : List Char) : Option (List Char × List Char) := do
  let (year, cs') ← fixedNumber? 4 cs
  let (month, cs') ← fixedNumber? 2 (← after? '-' cs')
  let (day, cs') ← fixedNumber? 2 (← after? '-' cs')
  if month < 1 ∨ 12 < month ∨ day < 1 ∨ daysOfMonth year month < day then none
  return (cs.take 10, cs')

/-- The text of a fraction of a second, given its digits. -/
def fractionText (digits : List Char) : List Char :=
  match ((digits.take 9).reverse.dropWhile (· == '0')).reverse with
  | [] => []
  | kept => '.' :: kept

/-- Reads a time of day: its text, and the rest. -/
def time? (clock : Clock) (cs : List Char) : Option (List Char × List Char) := do
  let (hour, cs') ← fixedNumber? 2 cs
  let (minute, cs') ← fixedNumber? 2 (← after? ':' cs')
  let (second, cs') ← fixedNumber? 2 (← after? ':' cs')
  if clock.lastHour < hour ∨ 59 < minute ∨ 60 < second then none
  match after? '.' cs' with
  | none => return (cs.take 8, cs')
  | some cs' =>
    let digits := cs'.takeWhile Char.isDigit
    if digits = [] then none
    return (cs.take 8 ++ fractionText digits, cs'.dropWhile Char.isDigit)

/-- A number below hundred in two digits. -/
def twoDigits (n : Nat) : List Char :=
  [Nat.digitChar (n / 10), Nat.digitChar (n % 10)]

/-- Reads the offset of a time zone as a whole: its text. An offset of zero has a
plus sign. -/
def zone? (clock : Clock) (cs : List Char) : Option (List Char) :=
  match cs with
  | ['Z'] | ['z'] => some ['Z']
  | sign :: cs => do
    if sign ≠ '+' ∧ sign ≠ '-' then none
    let (hours, cs) ← fixedNumber? 2 cs
    let (minutes, cs) ← fixedNumber? 2 (← after? ':' cs)
    if !clock.reaches hours minutes ∨ cs ≠ [] then none
    let away := 60 * hours + minutes
    return (if away = 0 then '+' else sign) ::
      twoDigits (away / 60) ++ ':' :: twoDigits (away % 60)
  | [] => none

/-- Reads a time of day with or without a time zone as a whole. -/
def zonedTime? (clock : Clock) (cs : List Char) : Option (List Char) := do
  let (time, cs) ← time? clock cs
  if cs = [] then return time
  return time ++ (← zone? clock cs)

/-- Reads a date, a time of day, or a date with a time, as a whole. -/
def moment? (clock : Clock) (run : List Char) : Option String :=
  match date? run with
  | some (date, []) => some (String.ofList date)
  | some (date, sep :: cs) =>
    if sep = 'T' ∨ sep = 't' ∨ sep = ' ' then
      (zonedTime? clock cs).map fun time => String.ofList (date ++ 'T' :: time)
    else
      none
  | none =>
    match time? clock run with
    | some (time, []) => some (String.ofList time)
    | _ => none

end Toml

end UnitFile
