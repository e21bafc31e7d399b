import UnitFile.LineIndex
import UnitFile.Session
/-!
# Checking token lists

A token list is consistent with a text when every token is visible, not empty and
on one line, has the text found at its range and locations that the line index
confirms, and starts no earlier than the token before it ends. `findFlaw?` gives
the first flaw of a list, token by token. Two further checks compare the tokens
of a text with expected ones, and reading with earlier tokens with reading from
the start, at every cut of the text.
-/

namespace UnitFile

open Lexer

/-- What is wrong with a token list. -/
inductive Flaw where
  /-- A token of a kind that never appears. -/
  | invisible (t : Token)
  /-- A token without text. -/
  | empty (t : Token)
  /-- A range that is no part of the text. -/
  | outside (r : Range)
  /-- A text other than the one found at the range. -/
  | differs (r : Range)
  /-- A token over several lines. -/
  | spansLines (t : Token)
  /-- A location that the line index does not confirm. -/
  | misplaced (t : Token)
  /-- A token that starts before the one before it ends. -/
  | overlaps (t : Token)
  /-- Other tokens than expected. -/
  | unexpected (text : String) (d : Dialect)
  /-- A difference after cutting a text down. -/
  | shrinking (cut : Nat) (text : String)
  /-- A difference after growing a cut text. -/
  | growing (cut : Nat) (text : String)
deriving DecidableEq

/-- The wording of a flaw, where it has one. -/
def Flaw.message? : Flaw → Option String
  | .invisible t => some s!"invisible token {t.shown}"
  | .empty t => some s!"empty token {t.shown}"
  | .outside _ => none
  | .differs r => some s!"token text does not match source at {r.shown}"
  | .spansLines t => some s!"token spans lines: {t.shown}"
  | .misplaced t => some t.shown
  | .overlaps t => some s!"token {t.shown} starts before the previous token ends"
  | .unexpected text d => some s!"token stream mismatch for {Text.quoted text} ({d.name})"
  | .shrinking cut text => some s!"shrinking to {cut} bytes diverged for {Text.quoted text}"
  | .growing cut text => some s!"growing from {cut} bytes diverged for {Text.quoted text}"

/-- Whether the line index puts an offset at the given location. -/
def LineIndex.confirms (ix : LineIndex) (l : Location) : Bool :=
  match ix.locate l.offset with
  | .ok found => found == l
  | .error _ => false

/-- The flaw of one token in a text with its line index, when the token before it
ends at `previous`. -/
def tokenFlaw? (text : List Char) (ix : LineIndex) (previous : Nat) (t : Token) : Option Flaw :=
  if !t.kind.isVisible then some (.invisible t)
  else if t.text.isEmpty then some (.empty t)
  else
    match Text.slice? t.range.start.offset t.range.stop.offset text with
    | none => some (.outside t.range)
    | some part =>
      if part ≠ t.text.toList then some (.differs t.range)
      else if t.range.start.line ≠ t.range.stop.line then some (.spansLines t)
      else if !ix.confirms t.range.start || !ix.confirms t.range.stop then some (.misplaced t)
      else if t.range.start.offset < previous then some (.overlaps t)
      else none

/-- The first flaw of tokens that come after the offset `previous`. -/
def flawAfter? (text : List Char) (ix : LineIndex) (previous : Nat) : List Token → Option Flaw
  | [] => none
  | t :: ts => (tokenFlaw? text ix previous t).or (flawAfter? text ix t.range.stop.offset ts)

/-- The first flaw of a token list. -/
def findFlaw? (text : String) (tokens : List Token) : Option Flaw :=
  flawAfter? text.toList (LineIndex.ofChars text.toList) 0 tokens

/-- Compares the tokens of a text with expected kinds and texts. -/
def expectTokens? (d : Dialect) (text : String) (expected : List (Kind × String)) : Option Flaw :=
  let tokens := (tokenize d text).tokens
  if tokens.map (fun t => (t.kind, t.text)) = expected then findFlaw? text tokens
  else some (.unexpected text d)

/-- The flaw at one cut of a text with given tokens. -/
def cutFlaw? (d : Dialect) (text : String) (tokens : List Token) (cut : Nat) : Option Flaw :=
  let head := String.ofList (((Text.splitAtByte? cut text.toList).map Prod.fst).getD [])
  let fresh := tokenize d head
  if retokenize d tokens head ≠ fresh then some (.shrinking cut text)
  else if (retokenize d fresh.tokens text).tokens ≠ tokens then some (.growing cut text)
  else none

/-- Compares reading with earlier tokens with reading from the start, for every
cut of a text. -/
def expectIncremental? (d : Dialect) (text : String) : Option Flaw :=
  (Text.boundaries 0 text.toList).findSome? (cutFlaw? d text (tokenize d text).tokens)

end UnitFile
