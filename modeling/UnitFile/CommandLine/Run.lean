import UnitFile.CommandLine.Arguments
import UnitFile.CommandLine.Report
import UnitFile.Settings.Load
/-!
# Command line — running

A run reads the arguments, loads the settings, reads the file and prints what is
asked for. It is a function of the arguments and of the files that can be found;
`neededFiles` names those it looks at.
-/

namespace UnitFile

namespace CommandLine

/-- What a run leaves behind. -/
structure Outcome where
  /-- The exit code: 0 for success, 1 for failure, 2 for misuse. -/
  code : Nat
  output : String := ""
  /-- The message of a failure. -/
  failure : Option String := none
deriving DecidableEq

/-- The first line of the message of a failure. A line ends with `\n` or `\r\n`; the
message is printed with an `\n` after it. -/
def Outcome.failureLine (o : Outcome) : Option String :=
  o.failure.map fun message =>
    let line := message.toList.takeWhile (· ≠ '\n')
    String.ofList (if line.getLast? = some '\r' then line.dropLast else line)

/-- Why a request cannot be answered. -/
inductive Failure where
  | settings (e : LoadError)
  | unreadable (path : String)
  | offsetPastEnd (offset size : Nat)
  | offsetInsideCharacter (offset : Nat)

/-- The wording of a failure. -/
def Failure.message : Failure → String
  | settings _ => "failed to load configuration"
  | unreadable path => s!"failed to read {path}"
  | offsetPastEnd offset size => s!"offset {offset} is past the end of the file ({size} bytes)"
  | offsetInsideCharacter offset => s!"offset {offset} is inside a multi-byte character"

/-- The settings file that is read unless another one is named. -/
def defaultSettingsFile : String := "unitconf.toml"

/-- The layers of settings of a request. -/
def layers (r : Request) : List Layer :=
  let file :=
    match r.config with
    | some name => Layer.file name
    | none => Layer.optionalFile defaultSettingsFile
  let set := fun path (d : Datum) => Layer.set path (.datum d none)
  [file] ++
    (r.format.map fun format => set "output.format" (.string format.name)).toList ++
    (r.dialect.map fun choice => set "tokenizer.dialect" (.string choice.name)).toList ++
    (if r.compact then [set "output.pretty" (.boolean false)] else [])

/-- The place in the text that the context is asked for: the end, unless an offset
is given. -/
def checkedOffset (text : String) (offset : Option Nat) : Except Failure Nat :=
  let size := Text.byteLength text.toList
  let offset := offset.getD size
  if size < offset then .error (.offsetPastEnd offset size)
  else if !Text.isBoundary offset text.toList then .error (.offsetInsideCharacter offset)
  else .ok offset

/-- The findings about a text in the format of the settings. -/
def render (s : Settings) (d : Dialect) (text : String) (offset : Option Nat) :
    Except Failure String :=
  let output := tokenize d text
  let print := JsonTree.render s.pretty
  match s.format with
  | .tokens => .ok (print (.ofOutput output))
  | .tokenSimple => .ok ("\n".intercalate (output.tokens.map Token.shown))
  | .directives => .ok (print (.array ((directives output.tokens true).map .ofDirective)))
  | .folding =>
    .ok (print (.array ((folds Marker.ofComment s.folding output.tokens).map .ofFold)))
  | .context => do
    let offset ← checkedOffset text offset
    match cursorContext d text offset with
    | .ok context => .ok (print (.ofContext context))
    | .error _ => .error (.offsetInsideCharacter offset)

/-- Answers a request. -/
def answer (w : Workspace) (r : Request) : Except Failure String :=
  match Settings.load w (layers r) with
  | .error e => .error (.settings e)
  | .ok settings =>
    match (w r.path).bind String.fromUTF8? with
    | none => .error (.unreadable r.path)
    | some text => render settings (settings.dialect.resolve r.path) text r.offset

/-- How the command is used, in one line. -/
def usageText : String :=
  "Usage: unitconf [OPTIONS] <path>\n"

/-- The text of the help. -/
def helpText : String :=
  "Inspect tokens, directives, folding ranges and cursor context of unit files\n" ++
  "\n" ++ usageText ++ "\n" ++
  "Arguments:\n" ++
  "  <path>  Path to the unit or mkosi configuration file\n" ++
  "\n" ++
  "Options:\n" ++
  "  -f, --format <format>    Output format (default from configuration: tokens) " ++
  "[possible values: tokens, token-simple, directives, folding, context]\n" ++
  "  -d, --dialect <dialect>  Dialect, or 'auto' to pick it from the file name " ++
  "[possible values: auto, systemd, mkosi]\n" ++
  "      --offset <offset>    Byte offset for the context format (default: end of file)\n" ++
  "  -c, --config <config>    Configuration file layered over the built-in defaults\n" ++
  "      --compact            Print JSON on a single line\n" ++
  "  -v, --verbose...         Increase log verbosity (-v, -vv, -vvv)\n" ++
  "  -h, --help               Print help\n" ++
  "  -V, --version            Print version\n"

/-- The text of the version. -/
def versionText : String :=
  "unitconf 0.1.0\n"

/-- Runs the command line. -/
def run (w : Workspace) (args : List String) : Outcome :=
  match parse args with
  | .error .help => { code := 0, output := helpText }
  | .error .version => { code := 0, output := versionText }
  | .error .misuse => { code := 2 }
  | .ok request =>
    match answer w request with
    | .ok text => { code := 0, output := text ++ "\n" }
    | .error e => { code := 1, failure := some e.message }

/-- The paths at which a run looks for files. -/
def neededFiles (args : List String) : List String :=
  match parse args with
  | .error _ => []
  | .ok request =>
    Settings.candidates (request.config.getD defaultSettingsFile) ++ [request.path]

end CommandLine

end UnitFile
