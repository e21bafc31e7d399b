import UnitFile.Decimal.Shortest
import UnitFile.Settings.KeyPath
import UnitFile.Text.Case
import UnitFile.Toml.Document
/-!
# Settings — the tree of settings

Settings form a tree of tables and arrays; each value remembers the file it came
from. Writing to a path makes what is missing on the way: a parent that is no table
becomes one, and an array is filled up with `nil`. A table written over another is
merged into it key by key, anything else replaces what was there. Keys are compared
in lower case.
-/

namespace UnitFile

/-- A value that is neither a table nor an array. -/
inductive Datum where
  | nil
  | boolean (b : Bool)
  | integer (n : Int)
  | float (x : Decimal.Binary64)
  | string (s : String)
deriving DecidableEq

/-- A setting, with the file it came from if it came from one. -/
inductive Setting where
  | datum (d : Datum) (origin : Option String)
  | array (items : List Setting) (origin : Option String)
  | table (entries : List (String × Setting)) (origin : Option String)

namespace Setting

/-- The setting that holds nothing. -/
def nil : Setting :=
  .datum .nil none

/-- The entries of a table; anything else has none. -/
def entries : Setting → List (String × Setting)
  | table es _ => es
  | _ => []

/-- The items of an array; anything else has none. -/
def items : Setting → List Setting
  | array xs _ => xs
  | _ => []

/-- The file a setting came from. -/
def origin : Setting → Option String
  | datum _ o | array _ o | table _ o => o

/-- The same table, or an empty one in place of anything else. -/
def asTable : Setting → Setting
  | table es o => table es o
  | _ => table [] none

/-- The same array, or an empty one in place of anything else. -/
def asArray : Setting → Setting
  | array xs o => array xs o
  | _ => array [] none

/-- Changes the entry of a table under a key, or adds it. -/
def alterEntry (key : String) (f : Option Setting → Setting) :
    List (String × Setting) → List (String × Setting)
  | [] => [(key, f none)]
  | (k, v) :: es => if k = key then (k, f (some v)) :: es else (k, v) :: alterEntry key f es

/-- Changes the setting under a key of a table. -/
def alterKey (key : String) (f : Option Setting → Setting) (s : Setting) : Setting :=
  match s.asTable with
  | table es o => table (alterEntry (Text.lowercase key) f es) o
  | other => other

mutual

/-- Writes a value under a key. -/
def write (key : String) : Setting → Setting → Setting
  | table es _, s => alterKey key (fun old => writeAll es (old.getD (table [] none))) s
  | datum d o, s => alterKey key (fun _ => datum d o) s
  | array xs o, s => alterKey key (fun _ => array xs o) s

/-- Writes the entries of a table one by one. -/
def writeAll : List (String × Setting) → Setting → Setting
  | [], s => s
  | (key, v) :: es, s => writeAll es (write key v s)

end

/-- The place of an index in an array of a given size; a negative one counts from
the end. -/
def indexIn (size : Nat) (index : Int) : Nat :=
  if 0 ≤ index then index.toNat else size - (-index).toNat

/-- Changes an item of an array, filling the array up as far as needed. -/
def alterItem (index : Int) (f : Setting → Setting) (s : Setting) : Setting :=
  match s.asArray with
  | array xs o =>
    let i := indexIn xs.length index
    let xs := xs ++ List.replicate (i + 1 - xs.length) nil
    array (xs.modify i f) o
  | other => other

/-- Changes the setting at a path; it is `nil` where there is none. -/
def alterAt : KeyPath → (Setting → Setting) → Setting → Setting
  | .name key, f, s => alterKey key (fun old => f (old.getD nil)) s
  | .child parent key, f, s =>
    alterAt parent (alterKey key fun old => f (old.getD nil)) s
  | .item parent index, f, s => alterAt parent (alterItem index f) s

/-- Writes a value at a path. -/
def writeAt (path : KeyPath) (v : Setting) (s : Setting) : Setting :=
  match path with
  | .name key => write key v s
  | .child parent key => alterAt parent (write key v) s
  | .item parent index => alterAt parent (alterItem index fun _ => v) s

/-- Writes the entries of a file. A key that reads as a path is taken as one. -/
def writeFile : List (String × Setting) → Setting → Setting
  | [], s => s
  | (key, v) :: es, s =>
    writeFile es (writeAt ((KeyPath.parse? key).getD (.name key)) v s)

/-! ## Settings from TOML -/

/-- The key that marks a table as a date or a time. -/
def momentKey : String := "$__toml_private_datetime"

/-- The text of the date or time that a string holds; other values hold none. -/
def quotedMoment? : Toml.Value → Option String
  | .string s => Toml.moment? .quoted s.toList
  | _ => none

mutual

/-- The setting that a TOML value stands for. -/
def ofToml? (origin : Option String) : Toml.Value → Option Setting
  | .string s | .moment s => some (datum (.string s) origin)
  | .integer n => some (datum (.integer n) origin)
  | .float x => some (datum (.float x) origin)
  | .boolean b => some (datum (.boolean b) origin)
  | .array items => (ofTomlItems? origin items).map (array · origin)
  | .table _ entries => ofTomlTable? origin entries
  | .tables items => (ofTomlTables? origin items).map (array · origin)

/-- The settings of the items of an array. -/
def ofTomlItems? (origin : Option String) : List Toml.Value → Option (List Setting)
  | [] => some []
  | v :: vs => do return (← ofToml? origin v) :: (← ofTomlItems? origin vs)

/-- The setting of a table. If its first key is `momentKey`, the table stands for
the date or time in the string under it, whatever comes after. -/
def ofTomlTable? (origin : Option String) : List (String × Toml.Value) → Option Setting
  | [] => some (table [] origin)
  | (key, v) :: es =>
    if key = momentKey then
      (quotedMoment? v).map fun text => datum (.string text) origin
    else do
      return table ((key, ← ofToml? origin v) :: (← ofTomlEntries? origin es)) origin

/-- The settings of the entries of a table. -/
def ofTomlEntries? (origin : Option String) :
    List (String × Toml.Value) → Option (List (String × Setting))
  | [] => some []
  | (key, v) :: es => do return (key, ← ofToml? origin v) :: (← ofTomlEntries? origin es)

/-- The settings of an array of tables. -/
def ofTomlTables? (origin : Option String) :
    List (List (String × Toml.Value)) → Option (List Setting)
  | [] => some []
  | es :: rest => do return (← ofTomlTable? origin es) :: (← ofTomlTables? origin rest)

end

/-- The entries of a document, which has to stand for a table. -/
def ofDocument? (origin : Option String) (root : Toml.Entries) :
    Option (List (String × Setting)) :=
  match ofTomlTable? origin root with
  | some (table es _) => some es
  | _ => none

end Setting

end UnitFile
