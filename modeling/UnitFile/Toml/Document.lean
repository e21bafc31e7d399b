import UnitFile.Toml.Scalar
/-!
# TOML — documents

A document is read line by line into the entries of its root table. Values nest
less than eighty deep, and a dotted key has fewer than eighty parts.
`Toml.parse?` gives nothing for a text that is no TOML document; a byte order mark
at its start is skipped.
-/

namespace UnitFile

namespace Toml

/-- The bound on the nesting of values and on the parts of a key. -/
def maxDepth : Nat := 80

/-- Whether a character can stand in a key without quotes. -/
def isBareKeyChar (c : Char) : Bool :=
  c.isAlphanum || c == '_' || c == '-'

namespace Scan

/-- Takes one part of a key. -/
def simpleKey : Scan String := do
  match ← lineString? with
  | some key => return key
  | none =>
    let bare ← takeRun isBareKeyChar
    if bare.isEmpty then refuse
    return String.ofList bare

/-- Takes the parts of a key after a first one. -/
def keyParts : Nat → Scan (List String)
  | 0 => refuse
  | fuel + 1 => do
    blanks
    if ← accept "." then
      blanks
      let key ← simpleKey
      return key :: (← keyParts fuel)
    else
      return []

/-- Takes a dotted key: the parts before the last, and the last. -/
def key : Scan (List String × String) := do
  blanks
  let first ← simpleKey
  let parts := first :: (← keyParts maxDepth)
  if maxDepth ≤ parts.length then refuse
  match parts.getLast? with
  | some last => return (parts.dropLast, last)
  | none => refuse

mutual

/-- Takes a value at a given depth. -/
def value (fuel depth : Nat) : Scan Value := do
  match fuel with
  | 0 => refuse
  | fuel + 1 =>
    if let some s ← string? then return .string s
    if ← accept "[" then
      if maxDepth ≤ depth + 1 then refuse
      return .array (← items fuel (depth + 1))
    if ← accept "\x7b" then
      if maxDepth ≤ depth + 1 then refuse
      blanks
      if ← accept "\x7d" then return .table .inline []
      return .table .inline (← pairs fuel (depth + 1) [])
    scalar

/-- Takes the items of an array, up to its end. -/
def items (fuel depth : Nat) : Scan (List Value) := do
  match fuel with
  | 0 => refuse
  | fuel + 1 =>
    layout
    if ← accept "]" then return []
    let v ← value fuel depth
    layout
    if ← accept "," then return v :: (← items fuel depth)
    expect "]"
    return [v]

/-- Takes the keys with their values of an inline table, up to its end, after the
given ones. -/
def pairs (fuel depth : Nat) (found : Entries) : Scan Entries := do
  match fuel with
  | 0 => refuse
  | fuel + 1 =>
    let (path, last) ← key
    expect "="
    blanks
    let v ← value fuel depth
    blanks
    match found.insertDotted? path last v with
    | none => refuse
    | some found =>
      if ← accept "," then
        blanks
        pairs fuel depth found
      else
        expect "\x7d"
        return found

end

/-- What has been read of a document: the root table, and the path of the table
that keys are added to. -/
structure Progress where
  root : Entries := []
  header : List String := []

/-- Takes a line. -/
def line (p : Progress) : Scan Progress := do
  blanks
  match ← peek with
  | none | some '#' | some '\n' | some '\r' =>
    endOfLine
    return p
  | some '[' =>
    expect "["
    let many ← accept "["
    let (path, last) ← key
    expect (if many then "]]" else "]")
    endOfLine
    match if many then p.root.openArray? path last else p.root.openTable? path last with
    | some root => return ⟨root, path ++ [last]⟩
    | none => refuse
  | some _ =>
    let (path, last) ← key
    expect "="
    blanks
    let v ← value ((← rest).length + 1) 0
    endOfLine
    match p.root.insertUnder? p.header path last v with
    | some root => return { p with root := root }
    | none => refuse

/-- Takes lines to the end of the text. -/
def lines (fuel : Nat) (p : Progress) : Scan Progress := do
  match fuel with
  | 0 => refuse
  | fuel + 1 =>
    if (← rest).isEmpty then return p
    lines fuel (← line p)

end Scan

/-- Reads a document: the entries of its root table. -/
def parse? (text : String) : Option Entries :=
  let cs :=
    match text.toList with
    | '\uFEFF' :: cs => cs
    | cs => cs
  (Scan.lines (cs.length + 1) {} cs).map fun found => found.1.root

end Toml

end UnitFile
