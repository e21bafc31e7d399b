import UnitFile.Lexer.Tokenize
import UnitFile.Proofs.LineRun
import UnitFile.Proofs.SideBySide
/-!
# When reuse is sound

`retokenize` keeps the tokens before the resume point and reads the rest of the
text. The result is that of `tokenize` on the whole text as soon as each kept token
may end where it does in the new text (`retokenize_of_endsIn`), and only then:
`EndsIn` is what trust in a token does not look at.

The resume point is a trusted token at the start of its line with no escaped token
before it (`resumePoint_cases`). What the lexer knows there, apart from the tokens,
is only whether a value is carried into the line; and there it makes no difference.
-/

namespace UnitFile

open Lexer Text Grammar

namespace Lexer

variable {d : Dialect}

/-! ## The resume point -/

theorem lastResumable_cases (code : Option Token) (index : Nat) (best : ResumePoint)
    (ts : List Token) :
    lastResumable d code index best ts = best ∨
      ∃ us u vs, ts = us ++ u :: vs ∧
        lastResumable d code index best ts = ⟨index + us.length, u.range.start⟩ ∧
        u.range.start.column = 0 ∧ (lastCode code us).any (endsEscaped d) = false := by
  induction ts generalizing code index best with
  | nil => exact Or.inl rfl
  | cons t ts ih =>
    rw [lastResumable]
    rcases ih (if t.kind = .comment then code else some t) (index + 1)
        (if t.range.start.column == 0 && !code.any (endsEscaped d) then ⟨index, t.range.start⟩
          else best) with hbest | ⟨us, u, vs, rfl, hpoint, hzero, hcode⟩
    · rw [hbest]
      split
      · rename_i hres
        simp only [Bool.and_eq_true, beq_iff_eq, Bool.not_eq_true'] at hres
        exact Or.inr ⟨[], t, ts, rfl, rfl, hres.1, hres.2⟩
      · exact Or.inl rfl
    · refine Or.inr ⟨t :: us, u, vs, rfl, ?_, hzero, hcode⟩
      rw [hpoint, List.length_cons, Nat.add_assoc, Nat.add_comm 1]

/-- **The resume point** is the start of the text, or a trusted token at the start of
its line that carries on no escaped line. -/
theorem resumePoint_cases (d : Dialect) (text : List Char) (earlier : List Token) :
    resumePoint d text earlier = {} ∨
      ∃ ts u vs, earlier = ts ++ u :: vs ∧
        resumePoint d text earlier = ⟨ts.length, u.range.start⟩ ∧
        u.range.start.column = 0 ∧ (lastCode none ts).any (endsEscaped d) = false ∧
        ts.length < trusted d text earlier := by
  unfold resumePoint
  refine (lastResumable_cases none 0 {} _).imp_right ?_
  rintro ⟨ts, u, vs, htake, hpoint, hzero, hcode⟩
  refine ⟨ts, u, vs ++ earlier.drop (trusted d text earlier), ?_, ?_, hzero, hcode, ?_⟩
  · have hsplit := List.take_append_drop (trusted d text earlier) earlier
    rw [htake] at hsplit
    simpa using hsplit.symm
  · rw [hpoint, Nat.zero_add]
  · have hlen := congrArg List.length htake
    simp only [List.length_take, List.length_append, List.length_cons] at hlen
    omega

/-- The tokens of an earlier text that are kept. -/
def kept (d : Dialect) (earlier : List Token) (text : String) : List Token :=
  earlier.take (resumePoint d text.toList earlier).reused

theorem mem_kept_iff {earlier : List Token} {text : String} {t : Token} :
    t ∈ kept d earlier text ↔
      ∃ i < (resumePoint d text.toList earlier).reused, earlier[i]? = some t := by
  simp only [kept, List.mem_iff_getElem?, List.getElem?_take]
  refine exists_congr fun i => ?_
  by_cases hi : i < (resumePoint d text.toList earlier).reused
  · simp [hi]
  · simp [hi]

/-- A text is read on in the same way whatever is carried into a line, if in a systemd file
that is nothing, and in a mkosi file the line is not indented. -/
theorem read_uncarried {p : Progress} {text : List Char}
    (hcarried : d.hasEscapes = true → p.carried = false)
    (hhead : d.hasEscapes = false → ∀ c ∈ text.head?, isBlank c = false) :
    p.read d text = (⟨p.tokens, false, p.here⟩ : Progress).read d text := by
  obtain ⟨tokens, carried, here⟩ := p
  cases hd : d.hasEscapes with
  | true =>
    obtain rfl : carried = false := hcarried hd
    rfl
  | false =>
    -- only an indented line would take up a value
    have hreading : ∀ line : List Char, (∀ c ∈ line.head?, isBlank c = false) →
        (⟨tokens, carried, here⟩ : Progress).reading d line =
          (⟨tokens, false, here⟩ : Progress).reading d line :=
      fun line hline => readLine_unindented hd hline
    by_cases hmem : '\n' ∈ text
    · obtain ⟨ln, rest, rfl, hln⟩ := exists_line hmem
      have hline : ∀ c ∈ ln.chars.head?, isBlank c = false :=
        fun c hc => hhead hd c (Line.head?_whole_append hc rest)
      rw [Progress.read_whole_append d _ hln, Progress.read_whole_append d _ hln, Progress.next,
        Progress.next, hreading _ hline]
      rfl
    · rw [Progress.read_of_notMem d _ hmem, Progress.read_of_notMem d _ hmem, Progress.finish,
        Progress.finish, hreading _ (hhead hd)]
      rfl

/-- So it is if the line is not indented and no escaped token comes before it. -/
theorem read_of_codeCarried {p : Progress} {text : List Char} (hp : CodeCarried d p)
    (hcode : (lastCode none p.tokens).any (endsEscaped d) = false)
    (hhead : ∀ c ∈ text.head?, isBlank c = false) :
    p.read d text = (⟨p.tokens, false, p.here⟩ : Progress).read d text := by
  refine read_uncarried (fun hd => ?_) fun _ => hhead
  -- a value would be carried in by an escaped token only
  by_contra hne
  have hany := hp hd (by simpa using hne)
  simp [hany] at hcode

end Lexer

/-! ## Reuse of the tokens of an earlier text -/

section Reuse

variable {d : Dialect} {before after : String}

/-- The tokens of a text as the grammar reads them. -/
theorem tokens_read (d : Dialect) (text : String) :
    (Progress.read d {} text.toList).tokens = ({} : Progress).tokens ++ (tokenize d text).tokens :=
  congrArg Output.tokens (Machine.output_start d text.toList).symm

/-- Every token of a text stands in it. -/
theorem exists_stands {text : String} {t : Token} (h : t ∈ (tokenize d text).tokens) :
    ∃ front rest, Stands {} text.toList t front rest :=
  Progress.stands_of_mem (tokens_read d text) h

/-- Every token of a text ends where it may. -/
theorem endsIn_of_mem {text : String} {t : Token} (h : t ∈ (tokenize d text).tokens) :
    EndsIn text.toList t := by
  obtain ⟨front, rest, hstands⟩ := exists_stands h
  have hstop : t.range.stop.offset = byteLength (front ++ t.text.toList) := by
    rw [hstands.stop, Nat.zero_add]
  rw [hstands.split]
  exact (endsIn_iff hstop).2 hstands.ends

/-- The tokens before one at the start of its line are above it. -/
theorem above_of_column {ts vs : List Token} {u : Token}
    (htokens : (tokenize d before).tokens = ts ++ u :: vs) (hzero : u.range.start.column = 0) :
    ∀ t ∈ ts, t.range.stop.offset ≤ u.range.start.offset ∧
      t.range.stop.line < u.range.start.line := by
  have hpairs := Progress.read_pairwise (tokens_read d before)
  rw [htokens] at hpairs
  intro t ht
  exact (List.pairwise_append.1 hpairs).2.2 t ht u List.mem_cons_self hzero

/-- A token is kept for another one below it. -/
theorem exists_below_of_mem_kept {t : Token}
    (h : t ∈ kept d (tokenize d before).tokens after) :
    ∃ u ∈ (tokenize d before).tokens, t.range.stop.offset ≤ u.range.start.offset := by
  unfold kept at h
  rcases resumePoint_cases d after.toList (tokenize d before).tokens with
    hpoint | ⟨ts, u, vs, htokens, hpoint, hzero, -, -⟩
  · simp [hpoint] at h
  · rw [hpoint, htokens] at h
    have hts : t ∈ ts := by simpa using h
    exact ⟨u, by simp [htokens], (above_of_column htokens hzero t hts).1⟩

/-- With nothing kept the text is read from its start. -/
theorem retokenize_of_start {earlier : List Token} (h : resumePoint d after.toList earlier = {}) :
    retokenize d earlier after = tokenize d after := by
  simp [retokenize, h, tokenize, Machine.resume, State.atLineStart]

/-- **What a text read with reuse holds**: the grammar takes it up after the tokens
kept. -/
theorem retokenize_eq_read {ts vs : List Token} {u : Token}
    (htokens : (tokenize d before).tokens = ts ++ u :: vs) (hzero : u.range.start.column = 0)
    (hpoint : resumePoint d after.toList (tokenize d before).tokens =
      ⟨ts.length, u.range.start⟩) :
    retokenize d (tokenize d before).tokens after =
      Progress.read d ⟨ts, false, u.range.start⟩
        (((splitAtByte? u.range.start.offset after.toList).map Prod.snd).getD []) := by
  have hkept : (tokenize d before).tokens.take ts.length = ts := by simp [htokens]
  unfold retokenize
  simp only [hpoint, hkept]
  exact Machine.output_resume _ fun t ht =>
    (above_of_column htokens hzero t (List.mem_of_getLast? ht)).2

/-- **The tokens kept come first in the result.** -/
theorem kept_first (d : Dialect) (before after : String) :
    kept d (tokenize d before).tokens after <+:
      (retokenize d (tokenize d before).tokens after).tokens := by
  unfold kept
  rcases resumePoint_cases d after.toList (tokenize d before).tokens with
    hpoint | ⟨ts, u, vs, htokens, hpoint, hzero, -, -⟩
  · simp [hpoint]
  · obtain ⟨us, hus⟩ := Progress.exists_read_tokens d ⟨ts, false, u.range.start⟩
      (((splitAtByte? u.range.start.offset after.toList).map Prod.snd).getD [])
    rw [retokenize_eq_read htokens hzero hpoint, hus, hpoint]
    exact ⟨us, by simp [htokens]⟩

/-- **Reuse is sound if the tokens kept end where they may.** -/
theorem retokenize_of_endsIn
    (h : ∀ t ∈ kept d (tokenize d before).tokens after, EndsIn after.toList t) :
    retokenize d (tokenize d before).tokens after = tokenize d after := by
  unfold kept at h
  rcases resumePoint_cases d after.toList (tokenize d before).tokens with
    hpoint | ⟨ts, u, vs, htokens, hpoint, hzero, hcode, htrusted⟩
  · exact retokenize_of_start hpoint
  · have hkept : (tokenize d before).tokens.take ts.length = ts := by simp [htokens]
    rw [hpoint, hkept] at h
    rw [trusted, htokens] at htrusted
    have hfound : Found d u false false {} after.toList ts :=
      found_of_trusted none [] rfl htrusted h
    have hread := tokens_read d before
    rw [htokens] at hread
    obtain ⟨q, rest, hon, hq, hhere, tail, hrest⟩ :=
      hfound.read_to (p := {}) (q := {}) hread hzero
        (fun _ _ => ⟨rfl, rfl, fun _ => ⟨rfl, rfl⟩⟩) (fun _ hcarried => by simp at hcarried)
    -- the new text comes to `u` with the tokens kept, just where reading is taken up
    obtain ⟨front, hsplit, hoffset⟩ := hon.split
    rw [List.nil_append] at hq
    have hcut : splitAtByte? u.range.start.offset after.toList = some (front, rest) := by
      rw [← hhere, hoffset, hsplit, Nat.zero_add, splitAtByte?_append]
    have hhead : ∀ c ∈ rest.head?, isBlank c = false := by
      have hu : u ∈ (tokenize d before).tokens := by simp [htokens]
      obtain ⟨a, b, hstands⟩ := exists_stands hu
      obtain ⟨c, hc, hblank⟩ := hstands.head
      rw [hrest, List.head?_append, Option.mem_def.1 hc]
      simpa using hblank
    have hfull : tokenize d after = q.read d rest :=
      (Machine.output_start d after.toList).trans hon.read
    rw [retokenize_eq_read htokens hzero hpoint, hcut, hfull,
      read_of_codeCarried hon.code (hq ▸ hcode) hhead, hq, hhere]
    rfl

/-- And if the result is right, they do. -/
theorem endsIn_of_retokenize_eq
    (h : retokenize d (tokenize d before).tokens after = tokenize d after) :
    ∀ t ∈ kept d (tokenize d before).tokens after, EndsIn after.toList t := by
  intro t ht
  have hmem := (kept_first d before after).subset ht
  rw [h] at hmem
  exact endsIn_of_mem hmem

end Reuse

/-! ## The exact condition -/

/-- **Reuse gives the tokens of the full run exactly when the tokens kept are the
first tokens of the full run**, and that is when each of them may end where it does
in the new text. -/
theorem retokenize_exact_iff (d : Dialect) (before after : String) :
    (retokenize d (tokenize d before).tokens after = tokenize d after ↔
      kept d (tokenize d before).tokens after <+: (tokenize d after).tokens) ∧
    (kept d (tokenize d before).tokens after <+: (tokenize d after).tokens ↔
      ∀ t ∈ kept d (tokenize d before).tokens after, EndsIn after.toList t) := by
  have hends : kept d (tokenize d before).tokens after <+: (tokenize d after).tokens →
      ∀ t ∈ kept d (tokenize d before).tokens after, EndsIn after.toList t :=
    fun hfirst t ht => endsIn_of_mem (hfirst.subset ht)
  have hkept : retokenize d (tokenize d before).tokens after = tokenize d after →
      kept d (tokenize d before).tokens after <+: (tokenize d after).tokens :=
    fun h => h ▸ kept_first d before after
  exact ⟨⟨hkept, fun h => retokenize_of_endsIn (hends h)⟩,
    ⟨hends, fun h => hkept (retokenize_of_endsIn h)⟩⟩

/-- **Reuse is not always exact**: a comment is kept although the `\r` after it has
become a blank, which belongs to it. -/
theorem retokenize_inexact :
    ¬ ∀ (d : Dialect) (before after : String),
      retokenize d (tokenize d before).tokens after = tokenize d after := by
  intro h
  have hcase := h .systemd "#a\r\nB=1\nC=2" "#a \nB=1\nC=2"
  revert hcase
  decide +kernel

/-- **Which tokens spoil reuse.** The result is right if and only if no token kept
is a comment that a blank follows in the new text, or ends in a `\r` that a `\n`
follows. -/
theorem retokenize_eq_tokenize_iff (d : Dialect) (before after : String) :
    retokenize d (tokenize d before).tokens after = tokenize d after ↔
      ∀ i < (resumePoint d after.toList (tokenize d before).tokens).reused,
        ∀ t, (tokenize d before).tokens[i]? = some t →
          ¬ (t.kind = .comment ∧
              ∃ c, charAt? t.range.stop.offset after.toList = some c ∧ isBlank c = true) ∧
          ¬ (t.text.toList.getLast? = some '\r' ∧
              charAt? t.range.stop.offset after.toList = some '\n') := by
  have hends : ∀ t : Token, EndsIn after.toList t ↔
      ¬ (t.kind = .comment ∧
          ∃ c, charAt? t.range.stop.offset after.toList = some c ∧ isBlank c = true) ∧
      ¬ (t.text.toList.getLast? = some '\r' ∧
          charAt? t.range.stop.offset after.toList = some '\n') := by
    intro t
    simp [EndsIn]
  constructor
  · intro h i hi t ht
    exact (hends t).1 (endsIn_of_retokenize_eq h t (mem_kept_iff.2 ⟨i, hi, ht⟩))
  · intro h
    refine retokenize_of_endsIn fun t ht => (hends t).2 ?_
    obtain ⟨i, hi, hit⟩ := mem_kept_iff.1 ht
    exact h i hi t hit

end UnitFile
