import UnitFile.Proofs.LineRun
/-!
# Indents too wide to be counted

The line grammar has a plain form without any bound: below a value of a mkosi file every
line that starts with a blank takes the value up (`readTextFreely`). The lexer counts the
blanks in a word instead, and `indentWrap` of them wrap the count around, so that the line
is read as one that is not indented. It reads a text as the plain form does if no line of it
is indented that far (`lexer_reads_grammar`), which holds of every text with fewer characters
than that. At that number of blanks the two differ (`wide_indent_misread`).
-/

namespace UnitFile

open Lexer Text

namespace Grammar

variable {d : Dialect} {carried : Bool}

/-! ## The grammar without a bound -/

/-- Whether a line takes up the value carried into it, with any blank for an indent. -/
def takesUpFreely (d : Dialect) (carried : Bool) (indent : List Char) : Bool :=
  carried && (d.hasEscapes || !indent.isEmpty)

/-- What the next line holds, with any blank for an indent. -/
def Progress.readingFreely (d : Dialect) (p : Progress) (line : List Char) : LineReading :=
  readTaken d (takesUpFreely d p.carried (line.takeWhile isBlank)) (endsAssigned p.tokens) p.here
    line

/-- **A text read by the line grammar, with any blank for an indent.** -/
def readTextFreely (d : Dialect) (text : String) : Output :=
  Progress.readBy (Progress.readingFreely d) {} text.toList

/-! ## Texts with indents that can be counted -/

/-- No line of a text is indented by as many blanks as wrap the count around. -/
def CountableIndents (text : List Char) : Prop :=
  ∀ above indent rest, text = above ++ indent ++ rest →
    (above = [] ∨ above.getLast? = some '\n') → AllBlank indent → indent.length < indentWrap

namespace CountableIndents

variable {text rest : List Char} {ln : Line}

/-- A text with fewer characters has no such line. -/
theorem of_length_lt (h : text.length < indentWrap) : CountableIndents text := by
  intro above indent rest htext _ _
  have hlength := congrArg List.length htext
  simp only [List.length_append] at hlength
  omega

/-- The indent of the first line. -/
theorem takeWhile_lt (line rest : List Char) (h : CountableIndents (line ++ rest)) :
    (line.takeWhile isBlank).length < indentWrap := by
  refine h [] (line.takeWhile isBlank) (line.dropWhile isBlank ++ rest) ?_ (Or.inl rfl) ?_
  · rw [List.nil_append, ← List.append_assoc, List.takeWhile_append_dropWhile]
  · exact fun c hc => List.mem_takeWhile_imp hc

/-- The lines below. -/
theorem below (h : CountableIndents (ln.whole ++ rest)) : CountableIndents rest := by
  intro above indent tail hrest habove hindent
  refine h (ln.whole ++ above) indent tail (by simp [hrest]) (Or.inr ?_) hindent
  have hwhole : ln.whole.getLast? = some '\n' := by
    cases hstop : ln.stop <;> simp [Line.whole, hstop, LineBreak.chars]
  rcases habove with rfl | hlast
  · rw [List.append_nil, hwhole]
  · rw [List.getLast?_append, hlast, Option.some_or]

end CountableIndents

/-- A number of blanks that can be counted is an indent unless it is zero. -/
theorem takesUp_eq_takesUpFreely {indent : List Char} (h : indent.length < indentWrap) :
    takesUp d carried indent = takesUpFreely d carried indent := by
  have hindent : isIndent indent.length = !indent.isEmpty := by
    cases indent <;> simp_all [isIndent]
  rw [takesUp, takesUpFreely, hindent]

/-- In a systemd file indents do not matter. -/
theorem takesUp_of_hasEscapes (hd : d.hasEscapes = true) (indent : List Char) :
    takesUp d carried indent = takesUpFreely d carried indent := by
  simp [takesUp, takesUpFreely, hd]

namespace Progress

open CountableIndents

variable {p : Progress} {text line : List Char}

theorem reading_eq_readingFreely
    (h : d.hasEscapes = false → (line.takeWhile isBlank).length < indentWrap) :
    p.reading d line = p.readingFreely d line := by
  unfold reading readingFreely readLine
  cases hd : d.hasEscapes with
  | true => rw [takesUp_of_hasEscapes hd]
  | false => rw [takesUp_eq_takesUpFreely (h hd)]

/-- **Where every indent can be counted, the bound does not show.** -/
theorem read_eq_readFreely (h : d.hasEscapes = false → CountableIndents text) :
    p.read d text = p.readBy (readingFreely d) text := by
  induction text using lines_induction generalizing p with
  | last cs hcs =>
    have hreading : p.reading d cs = p.readingFreely d cs :=
      reading_eq_readingFreely fun hd => takeWhile_lt cs [] (by simpa using h hd)
    rw [read_of_notMem d p hcs, readBy_of_notMem _ p hcs, finish, hreading]
  | line ln hln rest ih =>
    have hreading : p.reading d ln.chars = p.readingFreely d ln.chars := by
      refine reading_eq_readingFreely fun hd => takeWhile_lt ln.chars (ln.stop.chars ++ rest) ?_
      rw [← List.append_assoc]
      exact h hd
    rw [read_whole_append d p hln, readBy_whole_append _ p hln, next, hreading]
    exact ih fun hd => (h hd).below

end Progress

/-! ## The line below a bare assignment -/

/-- A letter behind some blanks, on the line below a bare assignment. -/
def belowAssignment (w : List Char) : List Char :=
  Line.whole ⟨['K', '='], .lf⟩ ++ (w ++ ['a'])

section belowAssignment

variable {w : List Char}

theorem takeWhile_letter (hw : AllBlank w) : (w ++ ['a']).takeWhile isBlank = w :=
  takeWhile_indent hw (by simp [isBlank])

/-- Behind some blanks a letter is the value that the line takes up, or else a key. -/
theorem readTaken_letter {taken assigned : Bool} {l : Location} (hw : AllBlank w) :
    (readTaken .mkosi taken assigned l (w ++ ['a'])).tokens.map (·.kind) =
      [if taken then .value else .key] := by
  have hrest : (w ++ ['a']).dropWhile isBlank = ['a'] := dropWhile_indent hw (by simp [isBlank])
  unfold readTaken
  simp only [hrest]
  cases taken <;> rfl

/-- The text is read as two lines. -/
theorem readBy_belowAssignment (reading : Progress → List Char → LineReading) (hw : AllBlank w) :
    Progress.readBy reading {} (belowAssignment w) =
      let p := Progress.below {} ⟨['K', '='], .lf⟩ (reading {} ['K', '='])
      p.output (reading p (w ++ ['a'])) := by
  have hproper : Line.Proper ⟨['K', '='], .lf⟩ := by simp [Line.Proper]
  have hlast : '\n' ∉ w ++ ['a'] := by
    intro hmem
    rcases List.mem_append.1 hmem with hmem | hmem
    · exact absurd (hw _ hmem) (by decide)
    · simp at hmem
  rw [belowAssignment, Progress.readBy_whole_append _ _ hproper,
    Progress.readBy_of_notMem _ _ hlast]

/-- The letter is a value if the blanks are counted as an indent. -/
theorem read_belowAssignment (hw : AllBlank w) :
    (Progress.read .mkosi {} (belowAssignment w)).tokens.map (·.kind) =
      [.key, .assignment, if isIndent w.length then .value else .key] := by
  rw [Progress.read, readBy_belowAssignment _ hw]
  simp only [Progress.output, Progress.reading, readLine, List.map_append, readTaken_letter hw,
    takeWhile_letter hw]
  rfl

/-- Without the bound it is a value if there are any blanks. -/
theorem readFreely_belowAssignment (hw : AllBlank w) :
    (Progress.readBy (Progress.readingFreely .mkosi) {} (belowAssignment w)).tokens.map (·.kind) =
      [.key, .assignment, if w.isEmpty then .key else .value] := by
  rw [readBy_belowAssignment _ hw]
  simp only [Progress.output, Progress.readingFreely, List.map_append, readTaken_letter hw,
    takeWhile_letter hw]
  cases w <;> rfl

/-- **As many blanks as wrap the count around** make the letter a key, where it should be a
value. -/
theorem tokens_ne_of_length_eq_indentWrap (hw : AllBlank w) (hlength : w.length = indentWrap) :
    (Progress.read .mkosi {} (belowAssignment w)).tokens ≠
      (Progress.readBy (Progress.readingFreely .mkosi) {} (belowAssignment w)).tokens := by
  intro heq
  have hkinds := congrArg (List.map (·.kind)) heq
  rw [read_belowAssignment hw, readFreely_belowAssignment hw, hlength] at hkinds
  cases w with
  | nil => cases hlength
  | cons => cases hkinds

end belowAssignment

end Grammar

open Grammar

/-! ## Whole texts -/

/-- **The lexer reads line by line.** For every text it finds the tokens, and forecasts what
one more character would belong to, as the line grammar does. Where the indents of a mkosi file
can be counted, as the plain grammar does, in which any blank is an indent. -/
theorem lexer_reads_grammar (d : Dialect) (text : String) :
    tokenize d text = readText d text ∧
      ((d = .mkosi → CountableIndents text.toList) →
        tokenize d text = readTextFreely d text) := by
  have hread : tokenize d text = readText d text := tokenize_eq_readText d text
  refine ⟨hread, fun hcount => ?_⟩
  have hindents : d.hasEscapes = false → CountableIndents text.toList := by
    intro hd
    cases d with
    | systemd => cases hd
    | mkosi => exact hcount rfl
  rw [hread]
  exact Progress.read_eq_readFreely hindents

/-- A value, and an indented line that takes it up. -/
theorem lexer_reads_grammar_indented :
    CountableIndents "K=a\n \tb".toList ∧
      tokenize .mkosi "K=a\n \tb" = readTextFreely .mkosi "K=a\n \tb" := by
  have hcount : CountableIndents "K=a\n \tb".toList := .of_length_lt (by decide +kernel)
  exact ⟨hcount, (lexer_reads_grammar .mkosi "K=a\n \tb").2 fun _ => hcount⟩

/-- **Not every blank is an indent**: behind enough of them to wrap the count around the lexer
finds a key, where the line takes up the value of the one above. -/
theorem wide_indent_misread :
    (tokenize .mkosi (String.ofList (belowAssignment (List.replicate indentWrap ' ')))).tokens ≠
      (readTextFreely .mkosi
        (String.ofList (belowAssignment (List.replicate indentWrap ' ')))).tokens := by
  have hblank : AllBlank (List.replicate indentWrap ' ') := by
    intro c hc
    rw [List.eq_of_mem_replicate hc]
    rfl
  rw [tokenize_eq_readText, readText, readTextFreely, String.toList_ofList]
  exact tokens_ne_of_length_eq_indentWrap hblank List.length_replicate

end UnitFile
