import UnitFile.Lexer.Machine
/-!
# Lexer — taking up an edited text

Given the tokens of an earlier text, `resumePoint` finds how many of them still
hold and where the new text has to be read again.

A token is trusted while its text is still found at its range and the gap between
it and the trusted token before it is inert: blanks and line breaks only, or
whatever trails a closed section header on its line, with lines and columns that
lead exactly to the start of the token. Among the trusted tokens the last one at
column zero that does not carry on an escaped line is the place to resume, since
there the state of the lexer is determined by the token before.

After a systemd key or value that ends in a backslash the character that follows
decides whether the line was carried on, so trust goes on only over an empty gap
or one that begins with `\n`.
-/

namespace UnitFile

namespace Lexer

/-- How much of an earlier token list still holds, and where to read on. -/
structure ResumePoint where
  reused : Nat := 0
  start : Location := {}
deriving DecidableEq

/-- The place reached over a gap that makes no token, or nothing if the gap could
make one. The flag says that the gap trails a section header, up to the end of
its line. -/
def crossGap? : Bool → Location → List Symbol → Option Location
  | _, l, [] => some l
  | _, l, .lineBreak b :: gap => crossGap? false (l.nextLine b.width) gap
  | trailing, l, .char c :: gap =>
    if isBlank c || trailing then crossGap? trailing (l.after c) gap else none

/-- Whether a token is a section header with its closing bracket. -/
def isClosedHeader (t : Token) : Bool :=
  t.kind == .header && t.text.toList.getLast? == some ']'

/-- Whether a token ends in a backslash that can carry its line on. -/
def endsEscaped (d : Dialect) (t : Token) : Bool :=
  d.hasEscapes && t.kind.isEscapable && t.endsInBackslash

/-- Where the gap after a token, or at the start of a text, begins. -/
def gapStart (before : Option Token) : Location :=
  (before.map fun t => t.range.stop).getD {}

/-- Whether a gap after the token `before`, or at the start of a text, makes no
token and leads to the place `l`. -/
def isInertGap (d : Dialect) (before : Option Token) (gap : List Char) (l : Location) : Bool :=
  let undecided := before.any (endsEscaped d) && gap.head?.any (· != '\n')
  !undecided && crossGap? (before.any isClosedHeader) (gapStart before) (symbols gap) == some l

/-- Whether a token is visible, on one line, and as long as its range says. -/
def isWellPlaced (t : Token) : Bool :=
  let length := Text.byteLength t.text.toList
  t.kind.isVisible &&
    t.range.stop == ⟨t.range.start.offset + length, t.range.start.line,
      t.range.start.column + length⟩

/-- The text after a token, if the token is trusted. The text given is what comes
after the trusted token `before`. -/
def afterTrusted? (d : Dialect) (before : Option Token) (text : List Char) (t : Token) :
    Option (List Char) := do
  let origin := (gapStart before).offset
  if t.range.start.offset < origin then none
  let (gap, rest) ← Text.splitAtByte? (t.range.start.offset - origin) text
  if !(isInertGap d before gap t.range.start && isWellPlaced t) then none
  Text.afterStart? t.text.toList rest

/-- The number of tokens that are trusted, in the text after the trusted token
`before`. -/
def trustedAfter (d : Dialect) (before : Option Token) (text : List Char) : List Token → Nat
  | [] => 0
  | t :: ts =>
    match afterTrusted? d before text t with
    | none => 0
    | some rest => trustedAfter d (some t) rest ts + 1

/-- The number of tokens of an earlier text that are trusted. -/
def trusted (d : Dialect) (text : List Char) (earlier : List Token) : Nat :=
  trustedAfter d none text earlier

/-- The last of the given tokens that can be resumed at, or else `best`. The token
`code` is the last one before them that is no comment, and `index` tells how many
come before. -/
def lastResumable (d : Dialect) (code : Option Token) (index : Nat) (best : ResumePoint) :
    List Token → ResumePoint
  | [] => best
  | t :: ts =>
    let resumable := t.range.start.column == 0 && !code.any (endsEscaped d)
    lastResumable d (if t.kind = .comment then code else some t) (index + 1)
      (if resumable then ⟨index, t.range.start⟩ else best) ts

/-- Where to take an edited text up, given the tokens of an earlier one. -/
def resumePoint (d : Dialect) (text : List Char) (earlier : List Token) : ResumePoint :=
  lastResumable d none 0 {} (earlier.take (trusted d text earlier))

end Lexer

end UnitFile
