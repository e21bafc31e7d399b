import UnitFile.Settings.Decode
import UnitFile.Workspace
/-!
# Settings — loading

Settings are laid in layers: the built-in defaults, then files in order, then
overrides. A file is looked up under its name and then with `.toml` added. A file
may be optional; then it does not matter if it is missing or no text, but what it
holds has to be TOML all the same.
-/

namespace UnitFile

/-- A layer of settings. -/
inductive Layer where
  /-- A file that has to be there. -/
  | file (name : String)
  /-- A file that need not be there. -/
  | optionalFile (name : String)
  /-- A value for one setting, by the text of its path. -/
  | set (path : String) (value : Setting)

/-- Why settings cannot be loaded. -/
inductive LoadError where
  /-- A path of an override that reads as none. -/
  | badPath (path : String)
  /-- A file that is not there. -/
  | notFound (name : String)
  /-- A file that is no text. -/
  | notText (name : String)
  /-- A file that is no table in TOML. -/
  | notToml (name : String)
  /-- Settings that do not decode. -/
  | decode (e : DecodeError)

/-- The wording of a load error, where it has one. -/
def LoadError.message? : LoadError → Option String
  | badPath _ | notToml _ => none
  | notFound name => some s!"configuration file \"{name}\" not found"
  | notText _ => some "stream did not contain valid UTF-8"
  | decode e => some e.message

namespace Settings

/-- The built-in defaults. -/
def defaults : Setting :=
  let yes := Setting.datum (.boolean true) none
  .table
    [("tokenizer", .table [("dialect", .datum (.string "auto") none)] none),
      ("folding",
        .table [("comments", yes), ("regions", yes), ("values", yes), ("sections", yes)] none),
      ("output", .table [("format", .datum (.string "tokens") none), ("pretty", yes)] none)]
    none

/-- The path with slashes and dots at its end left out. -/
def trimmedPath (cs : List Char) : List Char :=
  let rec go : List Char → List Char
    | '/' :: cs => go cs
    | '.' :: '/' :: cs => go cs
    | cs => cs
  (go cs.reverse).reverse

/-- The paths under which a settings file is looked up. -/
def candidates (name : String) : List String :=
  match PathName.fileName? name with
  | none => [name]
  | some _ => [name, String.ofList (trimmedPath name.toList) ++ ".toml"]

/-- Looks a settings file up: the path under which it is found, and its contents. -/
def find? (w : Workspace) (name : String) : Option (String × ByteArray) :=
  (candidates name).findSome? fun path => (w path).map fun contents => (path, contents)

/-- Reads a settings file. -/
def readFile (w : Workspace) (name : String) : Except LoadError (List (String × Setting)) :=
  match find? w name with
  | none => .error (.notFound name)
  | some (path, contents) =>
    match String.fromUTF8? contents with
    | none => .error (.notText name)
    | some text =>
      match (Toml.parse? text).bind (Setting.ofDocument? (some (PathName.normalized path))) with
      | none => .error (.notToml name)
      | some entries => .ok entries

/-- Reads a settings file that need not be there. -/
def readOptionalFile (w : Workspace) (name : String) :
    Except LoadError (List (String × Setting)) :=
  match readFile w name with
  | .error (.notFound _) | .error (.notText _) => .ok []
  | result => result

/-- A layer with its path read. -/
inductive ParsedLayer where
  | file (name : String)
  | optionalFile (name : String)
  | set (path : KeyPath) (value : Setting)

/-- Reads the path of a layer. -/
def parseLayer : Layer → Except LoadError ParsedLayer
  | .file name => .ok (.file name)
  | .optionalFile name => .ok (.optionalFile name)
  | .set path value =>
    match KeyPath.parse? path with
    | some path => .ok (.set path value)
    | none => .error (.badPath path)

/-- Lays the files of the layers over a tree. -/
def layFiles (w : Workspace) : List ParsedLayer → Setting → Except LoadError Setting
  | [], s => .ok s
  | .file name :: layers, s => do
    let entries ← readFile w name
    layFiles w layers (Setting.writeFile entries s)
  | .optionalFile name :: layers, s => do
    let entries ← readOptionalFile w name
    layFiles w layers (Setting.writeFile entries s)
  | .set _ _ :: layers, s => layFiles w layers s

/-- Lays the overrides of the layers over a tree. -/
def layOverrides : List ParsedLayer → Setting → Setting
  | [], s => s
  | .set path value :: layers, s => layOverrides layers (Setting.writeAt path value s)
  | _ :: layers, s => layOverrides layers s

/-- Loads settings from layers over the defaults. -/
def load (w : Workspace) (layers : List Layer) : Except LoadError Settings := do
  let layers ← layers.mapM parseLayer
  let tree ← layFiles w layers defaults
  match (layOverrides layers tree).toSettings with
  | .ok settings => .ok settings
  | .error e => .error (.decode e)

end Settings

end UnitFile
