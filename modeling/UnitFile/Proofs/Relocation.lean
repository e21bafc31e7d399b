import UnitFile.Proofs.Grammar
/-!
# Moved places

The line grammar looks at no place. It only hands the place of a line on to the tokens it
finds there. So when places are moved, and each line stays in one piece (`KeepsLines`), a
line holds the same tokens in moved places (`readLine_moved`).
-/

namespace UnitFile

open Lexer Text

/-- A move of places under which each line stays in one piece. -/
def KeepsLines (f : Location → Location) : Prop :=
  ∀ l cs, (f l).past cs = f (l.past cs)

/-- The same token with both its ends moved. -/
def Token.moved (f : Location → Location) (t : Token) : Token :=
  { t with range := ⟨f t.range.start, f t.range.stop⟩ }

@[simp] theorem Token.moved_kind (f : Location → Location) (t : Token) :
    (t.moved f).kind = t.kind := rfl

namespace Grammar

variable {d : Dialect} {f : Location → Location}

/-- What a line holds, with all tokens moved. -/
def LineReading.moved (f : Location → Location) (r : LineReading) : LineReading :=
  { r with tokens := r.tokens.map (Token.moved f) }

theorem tokenOf_moved (hf : KeepsLines f) (kind : Kind) (l : Location) (cs : List Char) :
    tokenOf kind (f l) cs = (tokenOf kind l cs).moved f := by
  simp [tokenOf, Token.moved, hf l cs]

theorem assignedValue_moved (hf : KeepsLines f) (l : Location) (cs : List Char) :
    assignedValue (f l) cs = (assignedValue l cs).map (Token.moved f) := by
  simp only [assignedValue, hf l, tokenOf_moved hf]
  split <;> rfl

theorem assignmentTokens_moved (hf : KeepsLines f) (l : Location) (cs : List Char) :
    assignmentTokens (f l) cs = (assignmentTokens l cs).map (Token.moved f) := by
  simp [assignmentTokens, tokenOf_moved hf, hf l, assignedValue_moved hf]

theorem readHeader_moved (hf : KeepsLines f) (l : Location) (cs : List Char) :
    readHeader (f l) cs = (readHeader l cs).moved f := by
  simp only [readHeader, tokenOf_moved hf]
  split <;> rfl

theorem readDirective_moved (hf : KeepsLines f) (l : Location) (line : List Char) (c : Char)
    (cs : List Char) :
    readDirective d (f l) line c cs = (readDirective d l line c cs).moved f := by
  simp only [readDirective, hf l, tokenOf_moved hf, assignmentTokens_moved hf]
  split <;> rfl

/-- **A line at a moved place holds the same tokens, moved.** -/
theorem readLine_moved (hf : KeepsLines f) (carried assigned : Bool) (l : Location)
    (line : List Char) :
    readLine d carried assigned (f l) line = (readLine d carried assigned l line).moved f := by
  simp only [readLine, readTaken, hf l, tokenOf_moved hf, assignmentTokens_moved hf,
    readHeader_moved hf, readDirective_moved hf]
  split
  · rfl
  · split_ifs <;> rfl

end Grammar

end UnitFile
