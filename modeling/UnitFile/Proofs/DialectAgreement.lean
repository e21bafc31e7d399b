import UnitFile.Proofs.LineRun
/-!
# Where the dialects agree

Three rules tell the dialects apart. A `;` begins a comment in a systemd file only, a
break behind a backslash carries a line on in a systemd file only, and an indent takes a
value up in a mkosi file only. A text is `Neutral` if it gives none of them anything to act
on: no line starts with a blank or a `;`, and no break comes right behind a backslash.

Both dialects read such a text alike (`neutral_read_alike`), though they do not carry the
same from line to line. In a mkosi file every value is carried into the line below, where
no indent takes it up; in a systemd file nothing is carried at all (`Idle`).
-/

namespace UnitFile

open Lexer Text

/-! ## Neutral texts -/

/-- No line starts with a blank or a `;`, and no line break comes right behind a
backslash. -/
structure Neutral (text : List Char) : Prop where
  flush : ∀ c ∈ [' ', '\t', ';'], text.head? ≠ some c ∧ ¬ ['\n', c] <:+: text
  unescaped : ¬ ['\\', '\n'] <:+: text ∧ ¬ ['\\', '\r', '\n'] <:+: text

/-- A line starts with no blank and no `;`. -/
def PlainStart (line : List Char) : Prop :=
  ∀ c ∈ line.head?, isBlank c = false ∧ c ≠ ';'

namespace Neutral

variable {text rest : List Char} {ln : Line}

theorem plainStart (h : Neutral text) : PlainStart text := by
  intro c hc
  have hne : ∀ x ∈ [' ', '\t', ';'], c ≠ x := by
    rintro x hx rfl
    exact (h.flush c hx).1 hc
  have hspace : c ≠ ' ' := hne ' ' (by simp)
  have htab : c ≠ '\t' := hne '\t' (by simp)
  exact ⟨by simp [isBlank, hspace, htab], hne ';' (by simp)⟩

/-- The first line of a neutral text starts plain. -/
theorem plainStart_line (h : Neutral (ln.whole ++ rest)) : PlainStart ln.chars :=
  fun c hc => h.plainStart c (Line.head?_whole_append hc rest)

/-- It does not end in a backslash. -/
theorem getLast?_line (h : Neutral (ln.whole ++ rest)) : ln.chars.getLast? ≠ some '\\' := by
  intro hlast
  obtain ⟨front, hfront⟩ := List.getLast?_eq_some_iff.1 hlast
  cases hstop : ln.stop with
  | lf => exact h.unescaped.1 ⟨front, rest, by simp [Line.whole, hfront, hstop, LineBreak.chars]⟩
  | crlf => exact h.unescaped.2 ⟨front, rest, by simp [Line.whole, hfront, hstop, LineBreak.chars]⟩

/-- What comes below it is neutral again. -/
theorem below (h : Neutral (ln.whole ++ rest)) : Neutral rest := by
  have hpart : ∀ {cs : List Char}, cs <:+: rest → cs <:+: ln.whole ++ rest :=
    fun hcs => hcs.trans (List.suffix_append _ _).isInfix
  refine ⟨fun c hc => ⟨fun hhead => (h.flush c hc).2 ?_, fun hcs => (h.flush c hc).2 (hpart hcs)⟩,
    fun hcs => h.unescaped.1 (hpart hcs), fun hcs => h.unescaped.2 (hpart hcs)⟩
  -- the `\n` in front of the first character is that of the break
  obtain ⟨tail, rfl⟩ := List.head?_eq_some_iff.1 hhead
  cases hstop : ln.stop with
  | lf => exact ⟨ln.chars, tail, by simp [Line.whole, hstop, LineBreak.chars]⟩
  | crlf => exact ⟨ln.chars ++ ['\r'], tail, by simp [Line.whole, hstop, LineBreak.chars]⟩

end Neutral

namespace Grammar

variable {d d' : Dialect} {carried carried' assigned : Bool} {l : Location} {line : List Char}
variable {r : LineReading}

/-! ## A single line -/

/-- Nothing is carried into a line by an escaped break. -/
def Idle (d : Dialect) (carried : Bool) : Prop :=
  d.hasEscapes = true → carried = false

/-- Without an indent and an escaped break no value is taken up. -/
theorem Idle.takesUp (h : Idle d carried) : takesUp d carried [] = false := by
  unfold Grammar.takesUp
  cases hd : d.hasEscapes with
  | true => simp [h hd]
  | false => simp [isIndent]

/-- The dialects have `#` in common. -/
theorem isCommentSign_of_ne {c : Char} (hc : c ≠ ';') (d : Dialect) :
    d.isCommentSign c = (c == '#') := by
  cases d <;> simp [Dialect.isCommentSign, hc]

/-- A key and what follows it depend on the dialect only in what they carry on. -/
theorem readDirective_alike (d d' : Dialect) (l : Location) (line : List Char) (c : Char)
    (cs : List Char) :
    (readDirective d l line c cs).tokens = (readDirective d' l line c cs).tokens ∧
      (readDirective d l line c cs).forecast = (readDirective d' l line c cs).forecast := by
  unfold readDirective
  dsimp only
  split <;> exact ⟨rfl, rfl⟩

/-- **A line that starts plain holds the same in both dialects**, if no escaped break
carries a value into it. -/
theorem readLine_alike (hline : PlainStart line) (h : Idle d carried) (h' : Idle d' carried') :
    (readLine d carried assigned l line).tokens = (readLine d' carried' assigned l line).tokens ∧
      (readLine d carried assigned l line).forecast =
        (readLine d' carried' assigned l line).forecast := by
  cases line with
  | nil => simp [readLine, readTaken, h.takesUp, h'.takesUp]
  | cons c cs =>
    obtain ⟨hblank, hsemicolon⟩ := hline c rfl
    have hindent : AllBlank [] := by simp [AllBlank]
    have hread : readLine d carried assigned l ([] ++ c :: cs) = _ :=
      readLine_indent hindent hblank
    have hread' : readLine d' carried' assigned l ([] ++ c :: cs) = _ :=
      readLine_indent hindent hblank
    simp only [List.nil_append, isCommentSign_of_ne hsemicolon, h.takesUp, h'.takesUp,
      Bool.false_eq_true, if_false] at hread hread'
    rw [hread, hread']
    split_ifs
    · exact ⟨rfl, rfl⟩
    · exact ⟨rfl, rfl⟩
    · exact ⟨rfl, rfl⟩
    · exact readDirective_alike ..

/-- A line of a systemd file that ends in no backslash carries nothing on. -/
theorem Reads.idle (h : Reads d carried assigned l line r) (hcarried : Idle d carried)
    (hlast : line.getLast? ≠ some '\\') : Idle d r.carriesOn := by
  intro hd
  have hruns : ∀ valued, runsOn d valued line = false := by
    intro valued
    simpa [runsOn, hd] using hlast
  cases h with
  | blank => rfl
  | comment => simp [Grammar.takesUp, hcarried hd]
  | value => exact hruns true
  | assignment => exact hruns true
  | closedHeader => rfl
  | openHeader => rfl
  | key => exact hruns false
  | directive => exact hruns true

/-! ## Line after line -/

namespace Progress

variable {p q : Progress}

/-- The next line holds the same, if the texts have led to the same tokens and place. -/
theorem reading_alike (hline : PlainStart line) (htokens : p.tokens = q.tokens)
    (hhere : p.here = q.here) (hp : Idle d p.carried) (hq : Idle d' q.carried) :
    (p.reading d line).tokens = (q.reading d' line).tokens ∧
      (p.reading d line).forecast = (q.reading d' line).forecast := by
  unfold reading
  rw [htokens, hhere]
  exact readLine_alike hline hp hq

/-- **A neutral text is read alike in both dialects**, from the same tokens and place. -/
theorem read_neutral {text : List Char} (htext : Neutral text) (htokens : p.tokens = q.tokens)
    (hhere : p.here = q.here) (hp : Idle d p.carried) (hq : Idle d' q.carried) :
    p.read d text = q.read d' text := by
  induction text using lines_induction generalizing p q with
  | last cs hcs =>
    obtain ⟨htoken, hforecast⟩ := reading_alike htext.plainStart htokens hhere hp hq
    rw [read_of_notMem d p hcs, read_of_notMem d' q hcs, finish, finish, output, output, htokens,
      htoken, hforecast]
  | line ln hln rest ih =>
    obtain ⟨htoken, -⟩ := reading_alike htext.plainStart_line htokens hhere hp hq
    rw [read_whole_append d p hln, read_whole_append d' q hln]
    refine ih htext.below ?_ ?_ ?_ ?_
    · rw [next_tokens, next_tokens, htokens, htoken]
    · rw [next_here, next_here, hhere]
    · exact (reads_reading d p ln.chars).idle hp htext.getLast?_line
    · exact (reads_reading d' q ln.chars).idle hq htext.getLast?_line

end Progress

end Grammar

/-! ## Whole texts -/

/-- **The dialects agree on every neutral text**, in the tokens and in the forecast. -/
theorem neutral_read_alike (text : String) (h : Neutral text.toList) :
    tokenize .systemd text = tokenize .mkosi text := by
  have hread : Grammar.Progress.read .systemd {} text.toList =
      Grammar.Progress.read .mkosi {} text.toList :=
    Grammar.Progress.read_neutral h rfl rfl (fun _ => rfl) (fun _ => rfl)
  rwa [← Machine.output_start, ← Machine.output_start] at hread

/-- An assignment with nothing behind it, a backslash and a `;` within a line, and a `\r` on
its own leave a text neutral. -/
theorem neutral_read_alike_backslash :
    tokenize .systemd "[A]\r\nB=1\\ ;\nC=\n=\\\r#\n\n#\\" =
      tokenize .mkosi "[A]\r\nB=1\\ ;\nC=\n=\\\r#\n\n#\\" := by
  refine neutral_read_alike _ ⟨?_, by decide +kernel⟩
  simp only [List.forall_mem_cons]
  refine ⟨?_, ?_, ?_, by simp⟩ <;> decide +kernel

/-- Each form that is left out is read differently in some text. -/
example : ∀ text ∈ ["A=1\n B", "A=1\n\tB", ";", "A=\\\nB", "A=\\\r\nB"],
    tokenize .systemd text ≠ tokenize .mkosi text := by
  decide +kernel

end UnitFile
