import UnitFile.Lexer.Tokenize
/-!
# Editing sessions

A session holds a text with its tokens and reads the text again after every
change, reusing the tokens it has. A report says what was found, where reading
was taken up, and whether a reading from the start finds the same.
-/

namespace UnitFile

open Lexer

/-- Where reading is taken up, when there are earlier tokens at all. -/
def resumePoint? (d : Dialect) (text : String) (earlier : List Token) : Option ResumePoint :=
  if earlier.isEmpty then none else some (resumePoint d text.toList earlier)

/-- A text under edit. -/
structure Session where
  dialect : Dialect := .systemd
  text : String := ""
  tokens : List Token := []
deriving DecidableEq

/-- A change to a session. -/
inductive Change where
  /-- Replaces the text. -/
  | setText (text : String)
  /-- Replaces the part between two byte offsets. -/
  | splice (start stop : Nat) (text : String)
  /-- Reads the text in a dialect from now on. -/
  | setDialect (dialect : Dialect)
  /-- Drops the tokens. -/
  | forget
  /-- Keeps the first tokens only. -/
  | keep (count : Nat)
  /-- Leaves all as it is, but reads for the last token only. -/
  | readLast
deriving DecidableEq

/-- What reading a text again found. -/
structure Report where
  output : Output
  resume : Option ResumePoint
  /-- Whether reading from the start finds the same. -/
  sameAsFull : Bool
deriving DecidableEq

namespace Session

/-- The text with the part between two byte offsets replaced; nothing when they
are not two places of the text in order. -/
def spliced? (text : String) (start stop : Nat) (new : String) : Option String := do
  let (before, rest) ← Text.splitAtByte? start text.toList
  if stop < start then none
  let (_, after) ← Text.splitAtByte? (stop - start) rest
  return String.ofList (before ++ new.toList ++ after)

/-- The session after a change, before its text is read again. -/
def changed? (s : Session) : Change → Option Session
  | .setText text => some { s with text := text }
  | .splice start stop new => (spliced? s.text start stop new).map fun text => { s with text := text }
  | .setDialect dialect => some { s with dialect := dialect }
  | .forget => some { s with tokens := [] }
  | .keep count => some { s with tokens := s.tokens.take count }
  | .readLast => some s

/-- Reads the text again. -/
def read (s : Session) (lastOnly : Bool) : Session × Report :=
  let view := fun o : Output => if lastOnly then o.lastOnly else o
  let output := view (retokenize s.dialect s.tokens s.text)
  ({ s with tokens := output.tokens },
    { output := output
      resume := resumePoint? s.dialect s.text s.tokens
      sameAsFull := output == view (tokenize s.dialect s.text) })

/-- Changes a session and reads its text again. A change that does not apply
leaves nothing to read. -/
def update? (s : Session) (change : Change) : Option (Session × Report) :=
  (s.changed? change).map fun s => s.read (change == .readLast)

end Session

/-- What the first bytes of a text give, and how reading moves between them and
the whole. -/
structure CutReport where
  cut : Nat
  /-- The first bytes, read with the tokens of the whole text. -/
  output : Output
  /-- Their last token. -/
  last : Option Token
  /-- Where reading the first bytes with the tokens of the whole is taken up. -/
  shrink : Option ResumePoint
  /-- Where reading the whole with the tokens of the first bytes is taken up. -/
  grow : Option ResumePoint
deriving DecidableEq

/-- The report for the first `cut` bytes of a text with given tokens. -/
def cutReport (d : Dialect) (text : String) (tokens : List Token) (cut : Nat) : CutReport :=
  let head := String.ofList (((Text.splitAtByte? cut text.toList).map Prod.fst).getD [])
  let fresh := tokenize d head
  { cut := cut
    output := retokenize d tokens head
    last := fresh.tokens.getLast?
    shrink := resumePoint? d head tokens
    grow := resumePoint? d text fresh.tokens }

/-- The reports for all cuts of a text between two characters. -/
def cutReports (d : Dialect) (text : String) : List CutReport :=
  (Text.boundaries 0 text.toList).map (cutReport d text (tokenize d text).tokens)

end UnitFile
