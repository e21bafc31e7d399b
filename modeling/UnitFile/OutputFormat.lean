/-!
# Output formats

The forms in which the findings about a file can be printed.
-/

namespace UnitFile

/-- What is printed about a file. -/
inductive OutputFormat where
  | tokens
  | tokenSimple
  | directives
  | folding
  | context
deriving DecidableEq

namespace OutputFormat

/-- Every format. -/
def all : List OutputFormat :=
  [.tokens, .tokenSimple, .directives, .folding, .context]

/-- The name of a format. -/
def name : OutputFormat → String
  | tokens => "tokens"
  | tokenSimple => "token-simple"
  | directives => "directives"
  | folding => "folding"
  | context => "context"

/-- A name that no format has. -/
structure Unknown where
  name : String
deriving DecidableEq

/-- The wording of an unknown format. -/
def Unknown.message (e : Unknown) : String :=
  s!"unknown output format '{e.name}'"

/-- The format with a given name, exactly as it is written. -/
def ofName (s : String) : Except Unknown OutputFormat :=
  match all.find? fun format => format.name == s with
  | some format => .ok format
  | none => .error ⟨s⟩

theorem ofName_name (f : OutputFormat) : ofName f.name = .ok f := by
  cases f <;> rfl

end OutputFormat

end UnitFile
