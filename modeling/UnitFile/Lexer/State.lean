import UnitFile.Token
/-!
# Lexer — the state between two characters

The state is all that decides how the next character is read: the token under
way, the last token finished, and what the line break before carries into this
line. At the start of a line that nothing is carried into it is determined by
the last token alone, `State.atLineStart`, which is what makes it possible to
take a text up again in the middle.
-/

namespace UnitFile

/-- What indentation means for the current line. The count is zero where it means
nothing, one where the line above can be carried on by an indented one, and more
once the line is indented and so carries the value above on. -/
structure Carry where
  count : UInt32
deriving DecidableEq

namespace Carry

/-- Indentation means nothing. -/
def closed : Carry :=
  ⟨0⟩

/-- The line above can be carried on by an indented one. -/
def ready : Carry :=
  ⟨1⟩

/-- The same, after a blank at the start of the line. Blanks are counted one by
one in a word, which wraps around. -/
def indent (carry : Carry) : Carry :=
  if 0 < carry.count then ⟨carry.count + 1⟩ else carry

/-- Whether the line is indented and carries the value above on. -/
def isIndented (carry : Carry) : Bool :=
  2 ≤ carry.count

end Carry

namespace Lexer

/-- The state of the lexer between two characters. -/
structure State where
  /-- The kind of the token under way. -/
  kind : Kind := .nothing
  /-- Where the token under way starts. -/
  start : Location := {}
  /-- Where the last character of it that counts ends. -/
  contentEnd : Location := {}
  /-- The kind of the last token finished. -/
  last : Kind := .nothing
  /-- Where the last token finished ends. -/
  lastEnd : Location := {}
  /-- What a line break would carry over, because the last character was an
  escaping backslash. -/
  escapedFor : Option Kind := none
  /-- What the next character that is not blank begins, because a line break was
  escaped. -/
  continueAs : Option Kind := none
  /-- What indentation means for the current line. -/
  carry : Carry := .closed
  /-- Whether the line has had a character that is not blank. -/
  pastIndent : Bool := false
  /-- Whether the comment under way stands among indented value lines. -/
  carriedComment : Bool := false
deriving DecidableEq

namespace State

/-- The state at the start of a line that nothing is carried into, after a given
last token. -/
def atLineStart (last : Option Token) : State :=
  match last with
  | none => {}
  | some t => { last := t.kind, lastEnd := t.range.stop }

/-- A token of a given kind gets under way. -/
def begin (s : State) (kind : Kind) (l : Location) : State :=
  { s with kind := kind, start := l, contentEnd := l, escapedFor := none }

/-- A token of a given kind is finished. -/
def commit (s : State) (kind : Kind) (stop : Location) : State :=
  { s with last := kind, lastEnd := stop }

/-- Whether the last token is an assignment on a given line. -/
def assignmentOnLine (s : State) (line : Nat) : Bool :=
  s.last == .assignment && s.lastEnd.line == line

end State

end Lexer

end UnitFile
