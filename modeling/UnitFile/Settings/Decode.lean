import UnitFile.Dialect
import UnitFile.Folding
import UnitFile.OutputFormat
import UnitFile.Settings.Setting
import UnitFile.Text.Quoted
/-!
# Settings — decoding

The tree of settings is read into a `Settings` record. A boolean may also be
written as a number, zero being false, or as a word; the name of a choice may be a
string or the only key of a table; a group of settings may be a table or an array
of its fields in order. `DecodeError` holds what can go wrong.
-/

namespace UnitFile

/-- How files are read and findings printed. -/
structure Settings where
  dialect : DialectChoice
  folding : FoldOptions
  format : OutputFormat
  pretty : Bool
deriving DecidableEq

/-- What a value is called in a message. -/
inductive Found where
  | unit
  | boolean (b : Bool)
  | integer (n : Int)
  | float (x : Decimal.Binary64)
  | string (s : String)
  | sequence
  | map
deriving DecidableEq

/-- The wording of a found value. -/
def Found.text : Found → String
  | unit => "unit value"
  | boolean b => s!"boolean `{b}`"
  | integer n => s!"integer `{n}`"
  | float x => s!"floating point `{x.shown}`"
  | string s => s!"string {Text.quoted s}"
  | sequence => "sequence"
  | map => "map"

/-- What a setting is found to be. -/
def Setting.found : Setting → Found
  | .datum .nil _ => .unit
  | .datum (.boolean b) _ => .boolean b
  | .datum (.integer n) _ => .integer n
  | .datum (.float x) _ => .float x
  | .datum (.string s) _ => .string s
  | .array _ _ => .sequence
  | .table _ _ => .map

/-- Why settings cannot be decoded. -/
inductive DecodeError where
  /-- A value at a path, from a file or not, that is no boolean. -/
  | notBoolean (found : Found) (path : String) (origin : Option String)
  /-- A value that cannot name a choice. -/
  | notChoice (choice : String)
  /-- A name that is none of a choice. -/
  | unknownChoice (choice name : String)
  /-- A value that is no group. -/
  | notGroup (found : Found) (group : String)
  /-- An array with too few items for a group. -/
  | tooShort (length : Nat) (group : String) (fields : Nat)
  /-- A group without a field. -/
  | missing (field : String)
deriving DecidableEq

/-- The wording of a decode error. -/
def DecodeError.message : DecodeError → String
  | notBoolean found path origin =>
    let place := (origin.map fun file => s!" in {file}").getD ""
    s!"invalid type: {found.text}, expected a boolean for key `{path}`{place}"
  | notChoice choice =>
    s!"value of enum {choice} should be represented by either string or table with exactly one key"
  | unknownChoice choice name =>
    s!"enum {choice} does not have variant constructor {name}"
  | notGroup found group =>
    s!"invalid type: {found.text}, expected struct {group}"
  | tooShort length group fields =>
    let noun := if fields = 1 then "element" else "elements"
    s!"invalid length {length}, expected struct {group} with {fields} {noun}"
  | missing field =>
    s!"missing field `{field}`"

namespace Setting

/-- The words for true. -/
def trueWords : List String := ["1", "true", "on", "yes"]

/-- The words for false. -/
def falseWords : List String := ["0", "false", "off", "no"]

/-- Reads a boolean at a path. -/
def toBool (path : String) (s : Setting) : Except DecodeError Bool :=
  match s with
  | .datum (.boolean b) _ => .ok b
  | .datum (.integer n) _ => .ok (n != 0)
  | .datum (.float x) _ => .ok (!x.isZero)
  | .datum (.string word) origin =>
    let word := Text.lowercase word
    if word ∈ trueWords then .ok true
    else if word ∈ falseWords then .ok false
    else .error (.notBoolean (.string word) path origin)
  | other => .error (.notBoolean other.found path other.origin)

/-- Reads the name of a choice, one of the given ones. -/
def toChoice {α : Type} (choice : String) (all : List α) (nameOf : α → String) (s : Setting) :
    Except DecodeError α :=
  let named := fun name =>
    match all.find? fun a => nameOf a == Text.lowercase name with
    | some a => .ok a
    | none => .error (.unknownChoice choice name)
  match s with
  | .datum (.string name) _ => named name
  | .table [(name, _)] _ => named name
  | _ => .error (.notChoice choice)

/-- The fields of a group as far as they are given, each with its path, from a table
or from an array of them in order. -/
def groupFields (group : String) (path : String) (names : List String) (s : Setting) :
    Except DecodeError (List (Option (String × Setting))) :=
  match s with
  | .table es _ =>
    .ok (names.map fun name => (es.lookup name).map fun v => (s!"{path}.{name}", v))
  | .array xs _ =>
    .ok (names.zipIdx.map fun name => xs[name.2]?.map fun v => (s!"{path}[{name.2}]", v))
  | other => .error (.notGroup other.found group)

/-- The fault of a group without one of its fields. -/
def missingField (group : String) (count : Nat) (field : String) (s : Setting) : DecodeError :=
  match s with
  | .array xs _ => .tooShort xs.length group count
  | _ => .missing field

/-- Reads the dialect choice out of its group. -/
def toDialect (s : Setting) : Except DecodeError DialectChoice := do
  match ← groupFields "TokenizerConfig" "tokenizer" ["dialect"] s with
  | [some (_, v)] => toChoice "DialectSetting" DialectChoice.all DialectChoice.name v
  | _ => .error (missingField "TokenizerConfig" 1 "dialect" s)

/-- Reads a boolean that is true unless it is given. -/
def toBoolOrTrue : Option (String × Setting) → Except DecodeError Bool
  | none => .ok true
  | some (path, v) => v.toBool path

/-- Reads the wanted families of folds. -/
def toFolding (s : Setting) : Except DecodeError FoldOptions := do
  match ← groupFields "FoldingOptions" "folding" ["comments", "regions", "values", "sections"] s with
  | [comments, regions, values, sections] =>
    return ⟨← toBoolOrTrue comments, ← toBoolOrTrue regions, ← toBoolOrTrue values,
      ← toBoolOrTrue sections⟩
  | _ => return {}

/-- Reads the output format and whether it is printed with indentation. A field
that is there is read before another one is missed. -/
def toOutput (s : Setting) : Except DecodeError (OutputFormat × Bool) := do
  match ← groupFields "OutputConfig" "output" ["format", "pretty"] s with
  | [format, pretty] =>
    let format ← format.mapM fun f =>
      toChoice "OutputFormat" OutputFormat.all OutputFormat.name f.2
    let pretty ← pretty.mapM fun f => f.2.toBool f.1
    match format, pretty with
    | some format, some pretty => return (format, pretty)
    | none, _ => .error (missingField "OutputConfig" 2 "format" s)
    | _, none => .error (missingField "OutputConfig" 2 "pretty" s)
  | _ => .error (missingField "OutputConfig" 2 "format" s)

/-- Reads the whole tree. -/
def toSettings (s : Setting) : Except DecodeError Settings := do
  let group := fun name =>
    match s.entries.lookup name with
    | some v => .ok v
    | none => .error (.missing name)
  let dialect ← (← group "tokenizer").toDialect
  let folding ← (← group "folding").toFolding
  let (format, pretty) ← (← group "output").toOutput
  return ⟨dialect, folding, format, pretty⟩

end Setting

end UnitFile
