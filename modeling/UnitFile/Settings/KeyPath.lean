/-!
# Settings — key paths

A key path names a setting: a name, followed by `.name` for an entry of a table
and `[index]` for an item of an array. Names are runs of letters, digits, spaces,
`_` and `-`; indices are whole numbers of 64 bits, with blanks around them or not.
-/

namespace UnitFile

/-- The way to a setting. -/
inductive KeyPath where
  | name (key : String)
  | child (parent : KeyPath) (key : String)
  | item (parent : KeyPath) (index : Int)
deriving DecidableEq

namespace KeyPath

/-- Whether a character can stand in a name. -/
def isNameChar (c : Char) : Bool :=
  c.isAlphanum || c == ' ' || c == '_' || c == '-'

/-- Takes a name from the front of a text. -/
def takeName? (cs : List Char) : Option (String × List Char) :=
  match cs.takeWhile isNameChar with
  | [] => none
  | run => some (String.ofList run, cs.dropWhile isNameChar)

/-- Whether a character is blank around an index. -/
def isIndexBlank (c : Char) : Bool :=
  c == ' ' || c == '\t'

/-- Takes an index with its closing bracket from the front of a text. -/
def takeIndex? (cs : List Char) : Option (Int × List Char) :=
  let cs := cs.dropWhile isIndexBlank
  let negative := cs.head? == some '-'
  let cs := if negative then cs.tail else cs
  let digits := cs.takeWhile Char.isDigit
  let n := digits.foldl (fun n c => 10 * n + (c.toNat - '0'.toNat)) 0
  let bound := if negative then 9223372036854775808 else 9223372036854775807
  match (cs.dropWhile Char.isDigit).dropWhile isIndexBlank with
  | ']' :: rest =>
    if digits.isEmpty || bound < n then none
    else some (if negative then -(n : Int) else n, rest)
  | _ => none

/-- Reads the steps after a path. -/
def steps? (fuel : Nat) (path : KeyPath) (cs : List Char) : Option KeyPath :=
  match fuel, cs with
  | _, [] => some path
  | fuel + 1, '.' :: cs => do
    let (key, cs) ← takeName? cs
    steps? fuel (.child path key) cs
  | fuel + 1, '[' :: cs => do
    let (index, cs) ← takeIndex? cs
    steps? fuel (.item path index) cs
  | _, _ => none

/-- Reads a key path. -/
def parse? (s : String) : Option KeyPath := do
  let (key, cs) ← takeName? s.toList
  steps? cs.length (.name key) cs

end KeyPath

end UnitFile
