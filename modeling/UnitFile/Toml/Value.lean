import UnitFile.Decimal.Binary64
/-!
# TOML — values and tables

Tables keep the order of their keys and remember how they came about, because that
decides how they may grow: a header names a table once, a dotted key adds only to
tables that dotted keys made, and an inline table is closed. Adding to a table
fails where TOML forbids it.
-/

namespace UnitFile

namespace Toml

/-- How a table came about. -/
inductive Made where
  /-- By a header of its own. -/
  | header
  /-- On the way to a header below it. -/
  | implicit
  /-- On the way of a dotted key. -/
  | dotted
  /-- As a value in braces. -/
  | inline
deriving DecidableEq

/-- A TOML value. -/
inductive Value where
  | string (s : String)
  | integer (n : Int)
  | float (x : Decimal.Binary64)
  | boolean (b : Bool)
  /-- A date, a time or both, by its canonical text. -/
  | moment (text : String)
  | array (items : List Value)
  | table (made : Made) (entries : List (String × Value))
  /-- An array made by headers in double brackets, as the entries of its tables. -/
  | tables (items : List (List (String × Value)))

/-- The entries of a table, in order. -/
abbrev Entries := List (String × Value)

namespace Entries

/-- Puts a value in place of the one that a key has. -/
def replace (es : Entries) (key : String) (v : Value) : Entries :=
  es.map fun e => if e.1 == key then (key, v) else e

/-- Adds a key that is not there yet. -/
def insert? (es : Entries) (key : String) (v : Value) : Option Entries :=
  if (es.lookup key).isSome then none else some (es ++ [(key, v)])

/-- Changes the table at a path below a table, given how that one was made.
Tables missing on the way are made; through an array of tables the way goes into
its last one. A dotted path does not enter tables with a header. -/
def updateAt? (dotted : Bool) (change : Made → Entries → Option Entries) :
    Made → List String → Entries → Option Entries
  | made, [], es => change made es
  | _, key :: path, es =>
    match es.lookup key with
    | none => do
      let made := if dotted then .dotted else .implicit
      let inner ← updateAt? dotted change made path []
      return es ++ [(key, .table made inner)]
    | some (.table made inner) => do
      if made = .inline ∨ (dotted = true ∧ made = .header) then none
      let inner ← updateAt? dotted change made path inner
      return es.replace key (.table made inner)
    | some (.tables items) => do
      let last ← items.getLast?
      let inner ← updateAt? dotted change .header path last
      return es.replace key (.tables (items.dropLast ++ [inner]))
    | some _ => none

/-- Adds a value under a dotted key. -/
def insertDotted? (es : Entries) (path : List String) (key : String) (v : Value) :
    Option Entries :=
  let add := fun made (inner : Entries) =>
    if path ≠ [] ∧ made ≠ .dotted then none else inner.insert? key v
  updateAt? true add .header path es

/-- Leaves out a key. -/
def erase (es : Entries) (key : String) : Entries :=
  es.filter fun e => e.1 != key

/-- Opens the table that a header names. A table that was already on the way to
another one moves to the end. -/
def openTable? (es : Entries) (path : List String) (key : String) : Option Entries :=
  let start := fun _ (inner : Entries) =>
    match inner.lookup key with
    | none => some (inner ++ [(key, .table .header [])])
    | some (.table .implicit old) => some (inner.erase key ++ [(key, .table .header old)])
    | some _ => none
  updateAt? false start .header path es

/-- Opens a further table of the array that a header in double brackets names. -/
def openArray? (es : Entries) (path : List String) (key : String) : Option Entries :=
  let start := fun _ (inner : Entries) =>
    match inner.lookup key with
    | none => some (inner ++ [(key, .tables [[]])])
    | some (.tables items) => some (inner.replace key (.tables (items ++ [[]])))
    | some _ => none
  updateAt? false start .header path es

/-- Adds a value under a dotted key of the table at a header path. -/
def insertUnder? (es : Entries) (header path : List String) (key : String) (v : Value) :
    Option Entries :=
  updateAt? false (fun _ inner => inner.insertDotted? path key v) .header header es

end Entries

end Toml

end UnitFile
