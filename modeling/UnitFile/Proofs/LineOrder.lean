import UnitFile.Proofs.LineRun
/-!
# Which tokens share a line

A line holds a comment, a section header or a line of a value alone, or a key, its
assignment and its value, or a part of these in that order. So of two tokens of a text
the later one stands on a line below, unless it is the assignment or the value on the
line of a key or of an assignment (`tokenize_inLines`). In particular nothing follows a
header, a value or a comment on its line, and nothing comes before a header or a comment.
-/

namespace UnitFile

open Lexer Text Grammar

/-- Whether a token of the one kind can be followed by one of the other kind on its
line. -/
def Kind.leadsTo : Kind → Kind → Bool
  | key, assignment | key, value | assignment, value => true
  | _, _ => false

/-- A token that comes before another one: on a line above, or on the same line, where
the kinds allow it. -/
def Token.Above (t u : Token) : Prop :=
  t.stopLine < u.startLine ∨ (t.stopLine = u.startLine ∧ t.kind.leadsTo u.kind = true)

/-- Tokens in the order of their lines, each on one line. -/
structure InLines (ts : List Token) : Prop where
  oneLine : ∀ t ∈ ts, t.stopLine = t.startLine
  pairwise : ts.Pairwise Token.Above

namespace Token.Above

variable {t u : Token}

theorem stopLine_le (h : t.Above u) : t.stopLine ≤ u.startLine := by
  rcases h with hlt | ⟨heq, -⟩ <;> omega

/-- Where the kinds cannot share a line, the later token is below. -/
theorem stopLine_lt (h : t.Above u) (hk : t.kind.leadsTo u.kind = false) :
    t.stopLine < u.startLine := by
  rcases h with hlt | ⟨-, hleads⟩
  · exact hlt
  · rw [hk] at hleads
    contradiction

end Token.Above

theorem Kind.leadsTo_comment (k : Kind) : k.leadsTo .comment = false := by
  cases k <;> rfl

theorem Kind.leadsTo_key (k : Kind) : k.leadsTo .key = false := by
  cases k <;> rfl

theorem Kind.header_leadsTo (k : Kind) : Kind.header.leadsTo k = false := by
  cases k <;> rfl

namespace Grammar

variable {d : Dialect} {carried assigned : Bool} {l : Location} {line : List Char}
variable {r : LineReading}

/-- What follows an assignment on its line is a value, and one at most. -/
theorem ReadsValue.kind_eq {cs : List Char} {ts : List Token} {t : Token}
    (h : ReadsValue l cs ts) (ht : t ∈ ts) : t.kind = .value := by
  cases h with
  | none => simp at ht
  | some => rw [List.mem_singleton.1 ht]; rfl

theorem ReadsValue.leadsTo {cs : List Char} {ts : List Token} (h : ReadsValue l cs ts) :
    ts.Pairwise fun t u => t.kind.leadsTo u.kind = true := by
  cases h with
  | none => exact List.Pairwise.nil
  | some => exact List.pairwise_singleton _ _

/-- **The tokens of a line follow one another as their kinds allow.** -/
theorem Reads.leadsTo (h : Reads d carried assigned l line r) :
    r.tokens.Pairwise fun t u => t.kind.leadsTo u.kind = true := by
  cases h with
  | blank => exact List.Pairwise.nil
  | comment => exact List.pairwise_singleton _ _
  | value => exact List.pairwise_singleton _ _
  | assignment hi htaken ha hts =>
    refine List.Pairwise.cons (fun u hu => ?_) hts.leadsTo
    rw [hts.kind_eq hu]
    rfl
  | closedHeader => exact List.pairwise_singleton _ _
  | openHeader => exact List.pairwise_singleton _ _
  | key => exact List.pairwise_singleton _ _
  | directive hi htaken hc hb ha hs he hgap hts =>
    refine List.Pairwise.cons (fun u hu => ?_) (List.Pairwise.cons (fun u hu => ?_) hts.leadsTo)
    · rcases List.mem_cons.1 hu with rfl | hu
      · rfl
      · rw [hts.kind_eq hu]
        rfl
    · rw [hts.kind_eq hu]
      rfl

theorem Reads.inLines (h : Reads d carried assigned l line r) : InLines r.tokens where
  oneLine := fun t ht => (h.line_eq ht).2.trans (h.line_eq ht).1.symm
  pairwise := by
    refine List.Pairwise.imp_of_mem (fun {t u} ht hu hleads => Or.inr ⟨?_, hleads⟩) h.leadsTo
    exact (h.line_eq ht).2.trans (h.line_eq hu).1.symm

/-- **The tokens of a text are in the order of their lines.** -/
theorem Progress.read_inLines {p : Progress} {text : List Char} {ts : List Token}
    (h : (p.read d text).tokens = p.tokens ++ ts) : InLines ts := by
  induction text using lines_induction generalizing p ts with
  | last cs hcs =>
    rw [read_last_tokens hcs h]
    exact (reads_reading d p cs).inLines
  | line ln hln rest ih =>
    obtain ⟨below, rfl, hbelow⟩ := read_whole_tokens hln h
    have hline := reads_reading d p ln.chars
    have hrest := ih hbelow
    refine ⟨fun t ht => ?_, List.pairwise_append.2 ⟨hline.inLines.pairwise, hrest.pairwise, ?_⟩⟩
    · rcases List.mem_append.1 ht with ht | ht
      · exact hline.inLines.oneLine t ht
      · exact hrest.oneLine t ht
    · intro t ht u hu
      have hlt := line_lt_of_mem hbelow hu
      have hstop := (hline.line_eq ht).2
      exact Or.inl (by unfold Token.stopLine Token.startLine; omega)

end Grammar

/-- **The tokens of a text are in the order of its lines.** -/
theorem tokenize_inLines (d : Dialect) (text : String) : InLines (tokenize d text).tokens := by
  have htokens : (Progress.read d {} text.toList).tokens = [] ++ (tokenize d text).tokens :=
    congrArg Output.tokens (Machine.output_start d text.toList).symm
  exact Progress.read_inLines htokens

/-! ## Parts of the tokens -/

namespace InLines

variable {ts us vs : List Token} {t u : Token}

theorem of_append_left (h : InLines (us ++ vs)) : InLines us where
  oneLine := fun t ht => h.oneLine t (List.mem_append_left _ ht)
  pairwise := (List.pairwise_append.1 h.pairwise).1

theorem of_append_right (h : InLines (us ++ vs)) : InLines vs where
  oneLine := fun t ht => h.oneLine t (List.mem_append_right _ ht)
  pairwise := (List.pairwise_append.1 h.pairwise).2.1

/-- A token comes before those behind it. -/
theorem above_of_mem (h : InLines (us ++ t :: vs)) (hu : u ∈ vs) : t.Above u :=
  (List.pairwise_cons.1 h.of_append_right.pairwise).1 u hu

/-- And after those in front of it. -/
theorem above_of_mem_front (h : InLines (us ++ t :: vs)) (hu : u ∈ us) : u.Above t :=
  (List.pairwise_append.1 h.pairwise).2.2 u hu t List.mem_cons_self

end InLines

end UnitFile
