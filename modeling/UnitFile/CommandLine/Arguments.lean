import UnitFile.Dialect
import UnitFile.OutputFormat
/-!
# Command line — arguments

Arguments are read from left to right. A switch with a value takes it from behind
an `=`, from the rest of a cluster of short switches, or from the next argument,
which must not look like a switch. After `--` everything is a path. The first fault
ends the reading, and so does a request for help or for the version.
-/

namespace UnitFile

namespace CommandLine

/-- The switches of the command line. -/
inductive Switch where
  | format
  | dialect
  | offset
  | config
  | compact
  | verbose
  | help
  | version
deriving DecidableEq

namespace Switch

/-- Every switch. -/
def all : List Switch :=
  [.format, .dialect, .offset, .config, .compact, .verbose, .help, .version]

/-- The long name of a switch. -/
def longName : Switch → String
  | format => "format"
  | dialect => "dialect"
  | offset => "offset"
  | config => "config"
  | compact => "compact"
  | verbose => "verbose"
  | help => "help"
  | version => "version"

/-- The short name of a switch, if it has one. -/
def shortName? : Switch → Option Char
  | format => some 'f'
  | dialect => some 'd'
  | config => some 'c'
  | verbose => some 'v'
  | help => some 'h'
  | version => some 'V'
  | offset | compact => none

/-- Whether a switch takes a value. -/
def takesValue : Switch → Bool
  | format | dialect | offset | config => true
  | compact | verbose | help | version => false

/-- The switch with a long name. -/
def ofLong? (name : List Char) : Option Switch :=
  all.find? fun s => s.longName.toList == name

/-- The switch with a short name. -/
def ofShort? (c : Char) : Option Switch :=
  all.find? fun s => s.shortName? == some c

end Switch

/-- What is asked for. -/
structure Request where
  path : String
  format : Option OutputFormat := none
  dialect : Option DialectChoice := none
  offset : Option Nat := none
  config : Option String := none
  compact : Bool := false
  verbosity : Nat := 0
deriving DecidableEq

/-- Why reading arguments ends early. -/
inductive Stop where
  | help
  | version
  | misuse
deriving DecidableEq

/-- The arguments read so far. -/
structure Draft where
  path : Option String := none
  format : Option OutputFormat := none
  dialect : Option DialectChoice := none
  offset : Option Nat := none
  config : Option String := none
  compact : Bool := false
  verbosity : Nat := 0
deriving DecidableEq

/-- The numbers of 64 bits are those below this one. -/
def wordBound : Nat :=
  18446744073709551616

/-- Reads a number of 64 bits, with a plus sign or not. -/
def number? (s : String) : Option Nat :=
  let digits :=
    match s.toList with
    | '+' :: cs => cs
    | cs => cs
  let n := digits.foldl (fun n c => 10 * n + (c.toNat - '0'.toNat)) 0
  if digits.isEmpty || !digits.all Char.isDigit || wordBound ≤ n then none else some n

/-- Fills a place that is still free with a value that is right. -/
def fill {α : Type} (old value : Option α) : Except Stop (Option α) :=
  match old, value with
  | none, some a => .ok (some a)
  | _, _ => .error .misuse

/-- A path, which is not empty. -/
def path? (s : String) : Option String :=
  if s.isEmpty then none else some s

namespace Draft

/-- Adds the path. -/
def addPath (d : Draft) (s : String) : Except Stop Draft := do
  return { d with path := ← fill d.path (path? s) }

/-- Gives a switch its value. -/
def give (d : Draft) (switch : Switch) (s : String) : Except Stop Draft :=
  match switch with
  | .format => do return { d with format := ← fill d.format (OutputFormat.ofName s).toOption }
  | .dialect => do return { d with dialect := ← fill d.dialect (DialectChoice.ofName? s) }
  | .offset => do return { d with offset := ← fill d.offset (number? s) }
  | .config => do return { d with config := ← fill d.config (path? s) }
  | _ => .error .misuse

/-- Sets a switch that takes no value. -/
def raise (d : Draft) : Switch → Except Stop Draft
  | .compact => if d.compact then .error .misuse else .ok { d with compact := true }
  | .verbose => .ok { d with verbosity := d.verbosity + 1 }
  | .help => .error .help
  | .version => .error .version
  | _ => .error .misuse

/-- Reads a long switch without its dashes. The switch given back still wants its
value. -/
def long (d : Draft) (cs : List Char) : Except Stop (Draft × Option Switch) := do
  let (name, tail) := cs.span (· ≠ '=')
  match Switch.ofLong? name with
  | none => .error .misuse
  | some switch =>
    match tail with
    | [] => if switch.takesValue then return (d, some switch) else return (← d.raise switch, none)
    | _ :: value =>
      if switch.takesValue then return (← d.give switch (String.ofList value), none)
      else .error .misuse

/-- Reads a cluster of short switches without its dash. The switch given back still
wants its value. -/
def cluster (d : Draft) : List Char → Except Stop (Draft × Option Switch)
  | [] => .ok (d, none)
  | c :: cs => do
    match Switch.ofShort? c with
    | none => .error .misuse
    | some switch =>
      if switch.takesValue then
        match cs with
        | [] => return (d, some switch)
        | '=' :: value => return (← d.give switch (String.ofList value), none)
        | value => return (← d.give switch (String.ofList value), none)
      else
        cluster (← d.raise switch) cs

/-- Reads the arguments after `--`. -/
def paths (d : Draft) : List String → Except Stop Draft
  | [] => .ok d
  | arg :: args => do paths (← d.addPath arg) args

/-- Reads arguments. A switch that wants its value gets the next one. -/
def read (d : Draft) (wanting : Option Switch) : List String → Except Stop Draft
  | [] => if wanting.isSome then .error .misuse else .ok d
  | arg :: args =>
    match wanting, arg.toList with
    | none, ['-', '-'] => d.paths args
    | none, '-' :: '-' :: cs => do
      let (d, wanting) ← d.long cs
      d.read wanting args
    | none, '-' :: c :: cs => do
      let (d, wanting) ← d.cluster (c :: cs)
      d.read wanting args
    | none, _ => do (← d.addPath arg).read none args
    | some _, '-' :: _ :: _ => .error .misuse
    | some switch, _ => do (← d.give switch arg).read none args

/-- The request that the arguments amount to. -/
def request (d : Draft) : Except Stop Request :=
  match d.path with
  | none => .error .misuse
  | some path => .ok ⟨path, d.format, d.dialect, d.offset, d.config, d.compact, d.verbosity⟩

end Draft

/-- Reads the arguments of the command line. -/
def parse (args : List String) : Except Stop Request := do
  (← Draft.read {} none args).request

end CommandLine

end UnitFile
