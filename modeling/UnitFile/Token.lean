import UnitFile.Location
import UnitFile.Text.Quoted
/-!
# Tokens

A token is a stretch of the text with a kind and the range it stands in. Two
kinds never appear in a token list that the lexer makes: `nothing`, when no token
is under way, and `discarded`, for what trails a section header on its line.
They occur as the state of the lexer and as its forecast.
-/

namespace UnitFile

/-- What a stretch of text is. -/
inductive Kind where
  /-- No token is under way. -/
  | nothing
  /-- A comment, from its sign to the end of the line. -/
  | comment
  /-- A section header, brackets included. -/
  | header
  /-- The key of a directive. -/
  | key
  /-- One line of the value of a directive. -/
  | value
  /-- The `=` between a key and its value. -/
  | assignment
  /-- Text that trails a section header on its line. -/
  | discarded
deriving DecidableEq

namespace Kind

/-- Every kind. -/
def all : List Kind :=
  [.nothing, .comment, .header, .key, .value, .assignment, .discarded]

/-- Whether tokens of this kind appear in token lists. -/
def isVisible : Kind → Bool
  | nothing | discarded => false
  | _ => true

/-- The name under which a kind is written out. -/
def name : Kind → String
  | nothing => "none"
  | comment => "comment"
  | header => "section"
  | key => "directiveKey"
  | value => "directiveValue"
  | assignment => "assignment"
  | discarded => "unknown"

/-- The kind with a given name. -/
def ofName? (s : String) : Option Kind :=
  all.find? fun k => k.name == s

/-- Whether a backslash at the end of a token of this kind can carry a line on. -/
def isEscapable : Kind → Bool
  | key | value => true
  | _ => false

theorem ofName?_name (k : Kind) : ofName? k.name = some k := by
  cases k <;> decide

end Kind

/-- A stretch of text with its kind and place. -/
structure Token where
  kind : Kind
  range : Range
  text : String
deriving DecidableEq

namespace Token

/-- The line a token starts on. -/
def startLine (t : Token) : Nat :=
  t.range.start.line

/-- The line a token ends on. -/
def stopLine (t : Token) : Nat :=
  t.range.stop.line

/-- Whether the last character is a backslash. -/
def endsInBackslash (t : Token) : Bool :=
  t.text.toList.getLast? == some '\\'

/-- The shown form of a token: kind, quoted text and place. -/
def shown (t : Token) : String :=
  s!"{t.kind.name}({Text.quoted t.text})@{t.range.shown}"

end Token

end UnitFile
