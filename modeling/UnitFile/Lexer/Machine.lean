import UnitFile.Dialect
import UnitFile.Text.Symbol
import UnitFile.Lexer.State
/-!
# Lexer — the machine

The machine reads a text symbol by symbol (`Machine.feed`). The kind of the token
under way says how a character is read: with `nothing` the character decides what
begins, a header waits for `]`, a key for `=`, values and comments run to the end
of the line, and `discarded` swallows what trails a header.

A line break finishes the token under way. Two rules carry a value over it. In a
systemd file a backslash as the last character of a key or a value makes the next
character that is not blank begin a value; comment lines in between keep that
pending, a blank line cancels it. In a mkosi file a line that ends in a value, or
in a bare assignment, is carried on by the indented lines below.
-/

namespace UnitFile

namespace Lexer

/-- The lexer at a place in a text, with the tokens it has finished. -/
structure Machine where
  state : State := {}
  /-- The place of the next symbol. -/
  here : Location := {}
  /-- The characters of the token under way up to its content end, last one
  first. -/
  content : List Char := []
  /-- The blanks since the content end, last one first. -/
  slack : List Char := []
  /-- The tokens finished, last one first. -/
  finished : List Token := []
deriving DecidableEq

/-- What the lexer finds in a text. -/
structure Output where
  tokens : List Token
  /-- The kind of token that one more character would belong to. -/
  forecast : Kind
deriving DecidableEq

namespace Machine

/-- Adds a finished token. -/
def emit (m : Machine) (t : Token) : Machine :=
  { m with state := m.state.commit t.kind t.range.stop, finished := t :: m.finished }

/-- Starts a token of a given kind with no character yet. -/
def begin (m : Machine) (kind : Kind) : Machine :=
  { m with state := m.state.begin kind m.here, content := [], slack := [] }

/-- Adds a character that counts to the token under way, with the blanks before
it. -/
def take (m : Machine) (c : Char) : Machine :=
  { m with
    state := { m.state with contentEnd := m.here.after c }
    content := c :: (m.slack ++ m.content)
    slack := [] }

/-- Adds a character to the token under way; a blank counts only once another
character follows it. -/
def takeTrimmed (m : Machine) (c : Char) : Machine :=
  if isBlank c then { m with slack := c :: m.slack } else m.take c

/-- Adds a character to the key or value under way. -/
def accumulate (d : Dialect) (m : Machine) (c : Char) : Machine :=
  let m := m.takeTrimmed c
  if d.hasEscapes then
    { m with state := { m.state with escapedFor := if c = '\\' then some .value else none } }
  else
    m

/-- Leaves no token under way. -/
def idle (m : Machine) : Machine :=
  { m with state := { m.state with kind := .nothing } }

/-- Finishes the token under way, if it is a visible one with content. -/
def close (m : Machine) : Machine :=
  let s := m.state
  if s.kind.isVisible && s.start.offset < s.contentEnd.offset then
    (m.emit ⟨s.kind, ⟨s.start, s.contentEnd⟩, String.ofList m.content.reverse⟩).idle
  else
    m.idle

/-- Adds the assignment at the current place. -/
def assign (m : Machine) : Machine :=
  (m.emit ⟨.assignment, ⟨m.here, m.here.after '='⟩, "="⟩).idle

/-- Reads a character when no token is under way: skips blanks, and otherwise
decides what begins. -/
def classify (d : Dialect) (m : Machine) (c : Char) : Machine :=
  if isBlank c then
    if d.hasIndentedValues then
      { m with state := { m.state with carry := m.state.carry.indent } }
    else
      m
  else
    let s := m.state
    let begun := { m with state := { s with pastIndent := true } }
    if !s.pastIndent && d.isCommentSign c then
      let carried := d.hasIndentedValues && s.carry.isIndented
      ({ begun with state := { begun.state with carriedComment := carried } }.begin .comment).take c
    else
      let m := { begun with state := { begun.state with continueAs := none, carry := .closed } }
      if s.continueAs.isSome || s.carry.isIndented || s.assignmentOnLine m.here.line then
        (m.begin (s.continueAs.getD .value)).accumulate d c
      else if c = '=' && s.last != .assignment then
        m.assign
      else if c = '[' then
        (m.begin .header).take c
      else
        (m.begin .key).accumulate d c

/-- Reads a character within a line. -/
def step (d : Dialect) (m : Machine) (c : Char) : Machine :=
  match m.state.kind with
  | .nothing | .assignment => m.classify d c
  | .comment => m.take c
  | .header =>
    let m := m.takeTrimmed c
    if c = ']' then
      let m := m.close
      { m with state := { m.state with kind := .discarded } }
    else
      m
  | .discarded => m
  | .key => if c = '=' then m.close.assign else m.accumulate d c
  | .value => m.accumulate d c

/-- What an escaped line break carries over, when the line ends within a token
of a given kind. -/
def continuation (s : State) : Option Kind :=
  match s.kind with
  | .key | .value => s.escapedFor
  | .comment => s.continueAs
  | _ => none

/-- Whether an indented line below would carry the value of this line on. -/
def carriesOn (s : State) (line : Nat) : Bool :=
  match s.kind with
  | .value => true
  | .nothing => s.assignmentOnLine line
  | .comment => s.carriedComment
  | _ => false

/-- Reads the break at the end of a line. -/
def endLine (d : Dialect) (m : Machine) : Machine :=
  let s := m.state
  let m := m.close
  { m with
    state :=
      { m.state with
        escapedFor := none
        continueAs := continuation s
        carry :=
          if d.hasIndentedValues then
            if carriesOn s m.here.line then .ready else .closed
          else s.carry
        kind := .nothing
        pastIndent := false
        carriedComment := false } }

/-- Reads one symbol. -/
def feed (d : Dialect) (m : Machine) : Symbol → Machine
  | .char c => { m.step d c with here := m.here.after c }
  | .lineBreak b => { m.endLine d with here := m.here.nextLine b.width }

/-- Reads symbols in order. -/
def run (d : Dialect) (m : Machine) (signs : List Symbol) : Machine :=
  signs.foldl (feed d) m

@[simp] theorem run_nil (d : Dialect) (m : Machine) : m.run d [] = m := rfl

@[simp] theorem run_cons (d : Dialect) (m : Machine) (s : Symbol) (ss : List Symbol) :
    m.run d (s :: ss) = (m.feed d s).run d ss := rfl

/-- A run over two parts goes on from where the first part leads. -/
theorem run_append (d : Dialect) (m : Machine) (a b : List Symbol) :
    m.run d (a ++ b) = (m.run d a).run d b :=
  List.foldl_append ..

/-- The kind of token that one more character would belong to. -/
def forecast (m : Machine) : Kind :=
  match m.state.kind with
  | .nothing | .assignment =>
    match m.state.continueAs with
    | some kind => kind
    | none =>
      if m.state.carry.isIndented || m.state.assignmentOnLine m.here.line then .value
      else .nothing
  | kind => kind

/-- What has been found when the text ends here. -/
def output (m : Machine) : Output :=
  ⟨m.close.finished.reverse, m.forecast⟩

/-- The machine at the start of a line that nothing is carried into, with given
tokens before it. -/
def resume (tokens : List Token) (l : Location) : Machine :=
  { state := State.atLineStart tokens.getLast?, here := l, finished := tokens.reverse }

end Machine

end Lexer

end UnitFile
