import UnitFile.Proofs.LaidOut
/-!
# Nothing is lost between the tokens

Every character of a text is a character of a token, at its place, or one that no token
needs to hold: a blank, a line break, or what trails a closed section header on its line
(`LaidOut.covers`). The ranges of the tokens do not overlap, so every byte lies in one of
them or belongs to a character of the second sort (`bytes_segmented`).
-/

namespace UnitFile

open Lexer Text

/-- Whether the byte at an offset lies in the range. -/
def Range.holds (r : Range) (offset : Nat) : Bool :=
  r.start.offset ≤ offset && offset < r.stop.offset

/-- How many of the given tokens have the byte at an offset in their range. -/
def holders (ts : List Token) (offset : Nat) : Nat :=
  ts.countP fun t => t.range.holds offset

/-- The character `c` behind `before` is one of the characters of a token. -/
def Token.HoldsAt (t : Token) (before : List Char) (c : Char) : Prop :=
  ∃ front back, t.text.toList = front ++ c :: back ∧
    byteLength before = t.range.start.offset + byteLength front

/-- The text ends on the line of a closed section header, behind the header. -/
def TrailsHeader (ts : List Token) (text : List Char) : Prop :=
  ∃ t ∈ ts, isClosedHeader t = true ∧
    ∃ upto line, text = upto ++ line ∧ byteLength upto = t.range.stop.offset ∧ '\n' ∉ line

/-- The character `c` between two parts of a text is one that no token needs to hold:
a space or a tab, a `\n`, a `\r` directly before a `\n`, or a character that trails a
closed section header on its line. -/
def Skipped (ts : List Token) (before : List Char) (c : Char) (after : List Char) : Prop :=
  isBlank c = true ∨ c = '\n' ∨ (c = '\r' ∧ after.head? = some '\n') ∨
    TrailsHeader ts (before ++ [c])

variable {earlier ts us : List Token} {trailing : Bool} {text before after a b : List Char}
variable {l : Location} {c : Char} {offset : Nat}

/-! ## Characters -/

theorem TrailsHeader.mono (h : TrailsHeader ts text) (hsub : ts ⊆ us) : TrailsHeader us text := by
  obtain ⟨t, ht, hrest⟩ := h
  exact ⟨t, hsub ht, hrest⟩

/-- A skipped character is skipped in a longer text too. -/
theorem Skipped.append (h : Skipped ts before c after) (hsub : ts ⊆ us) (b : List Char) :
    Skipped us before c (after ++ b) := by
  rcases h with hblank | hnewline | ⟨hc, hafter⟩ | htrails
  · exact Or.inl hblank
  · exact Or.inr (Or.inl hnewline)
  · exact Or.inr (Or.inr (Or.inl ⟨hc, by rw [List.head?_append, hafter]; rfl⟩))
  · exact Or.inr (Or.inr (Or.inr (htrails.mono hsub)))

/-- A character of a text of two parts is a character of the one or of the other. -/
theorem mem_append_cases (h : a ++ b = before ++ c :: after) :
    (∃ mid, a = before ++ c :: mid ∧ after = mid ++ b) ∨
      ∃ mid, before = a ++ mid ∧ b = mid ++ c :: after := by
  rcases List.append_eq_append_iff.1 h with ⟨mid, hbefore, hb⟩ | ⟨mid, ha, hmid⟩
  · exact Or.inr ⟨mid, hbefore, hb⟩
  · cases mid with
    | nil => exact Or.inr ⟨[], by simpa using ha.symm, by simpa using hmid.symm⟩
    | cons x mid =>
      obtain ⟨rfl, hafter⟩ := List.cons.inj hmid
      exact Or.inl ⟨mid, ha, hafter⟩

/-- A character of a line break is its `\n`, or the `\r` directly before it. -/
theorem lineBreak_char {br : LineBreak} (h : br.chars = before ++ c :: after) :
    c = '\n' ∨ (c = '\r' ∧ after.head? = some '\n') := by
  have hmem : c ∈ br.chars := by
    rw [h]
    simp
  cases br with
  | lf => exact Or.inl (List.mem_singleton.1 hmem)
  | crlf =>
    cases before with
    | nil =>
      obtain ⟨rfl, rfl⟩ := List.cons.inj h
      exact Or.inr ⟨rfl, rfl⟩
    | cons x before =>
      have hc : c ∈ ['\n'] := by
        rw [(List.cons.inj h).2]
        simp
      exact Or.inl (List.mem_singleton.1 hc)

/-- The flag of a layout tells that the text ends behind a closed header. -/
theorem Lexer.LaidOut.trailsHeader (h : LaidOut earlier trailing text l ts)
    (htrailing : trailing = true) : TrailsHeader ts text := by
  induction h with
  | start => simp at htrailing
  | @skip _ _ _ _ c h hc hskip ih =>
    obtain ⟨t, ht, hclosed, upto, line, rfl, hupto, hline⟩ := ih htrailing
    exact ⟨t, ht, hclosed, upto, line ++ [c], by simp, hupto, by simp [hline, Ne.symm hc]⟩
  | lineBreak h b ih => simp at htrailing
  | @token _ text l _ t h ht hrange ih =>
    refine ⟨t, by simp, htrailing, text ++ t.text.toList, [], by simp, ?_, by simp⟩
    rw [hrange, Location.past_offset, h.offset_eq, byteLength_append]

/-- **Every character is one of a token, or is skipped.** -/
theorem Lexer.LaidOut.covers (h : LaidOut earlier trailing text l ts)
    (htext : text = before ++ c :: after) :
    (∃ t ∈ ts, t.HoldsAt before c) ∨ Skipped ts before c after := by
  induction h generalizing after with
  | start => simp at htext
  | @skip _ text _ ts x h hx hskip ih =>
    rcases mem_append_cases htext with ⟨mid, rfl, rfl⟩ | ⟨mid, rfl, hmid⟩
    · exact (ih rfl).imp_right fun hs => hs.append (List.Subset.refl _) _
    · obtain ⟨rfl, rfl, rfl⟩ : mid = [] ∧ x = c ∧ after = [] := by
        cases mid <;> simp_all
      refine Or.inr (hskip.elim (fun htrailing => ?_) Or.inl)
      have htrails := (h.skip hx (Or.inl htrailing)).trailsHeader htrailing
      exact Or.inr (Or.inr (Or.inr (by simpa using htrails)))
  | lineBreak h b ih =>
    rcases mem_append_cases htext with ⟨mid, rfl, rfl⟩ | ⟨mid, rfl, hmid⟩
    · exact (ih rfl).imp_right fun hs => hs.append (List.Subset.refl _) _
    · refine Or.inr ((lineBreak_char hmid).elim (fun hc => Or.inr (Or.inl hc)) fun hcr => ?_)
      exact Or.inr (Or.inr (Or.inl hcr))
  | @token _ text l ts t h ht hrange ih =>
    rcases mem_append_cases htext with ⟨mid, rfl, rfl⟩ | ⟨mid, rfl, hmid⟩
    · rcases ih rfl with ⟨u, hu, hholds⟩ | hskipped
      · exact Or.inl ⟨u, List.mem_append_left _ hu, hholds⟩
      · exact Or.inr (hskipped.append (List.subset_append_left _ _) _)
    · refine Or.inl ⟨t, by simp, mid, after, hmid, ?_⟩
      rw [hrange, byteLength_append, ← h.offset_eq]

/-! ## Bytes -/

/-- A token holds every byte of its characters. -/
theorem Lexer.LaidOut.holds (h : LaidOut earlier trailing text l ts) {t : Token} (ht : t ∈ ts)
    (hholds : t.HoldsAt before c) (hle : byteLength before ≤ offset)
    (hlt : offset < byteLength (before ++ [c])) : t.range.holds offset = true := by
  obtain ⟨us, vs, rfl⟩ := List.append_of_mem ht
  obtain ⟨-, -, -, -, -, hstop, -⟩ := h.exists_split
  obtain ⟨front, back, htext, hfront⟩ := hholds
  have hend : t.range.stop.offset =
      t.range.start.offset + (byteLength front + (c.utf8Size + byteLength back)) := by
    rw [hstop, Location.past_offset, htext, byteLength_append, byteLength_cons]
  simp only [byteLength_append, byteLength_cons, byteLength_nil] at hlt
  simp only [Range.holds, Bool.and_eq_true, decide_eq_true_eq]
  omega

/-- **No byte lies in two ranges.** -/
theorem Lexer.LaidOut.holders_le_one (h : LaidOut earlier trailing text l ts) (offset : Nat) :
    holders ts offset ≤ 1 := by
  have hpairwise := h.pairwise
  clear h
  unfold holders
  induction ts with
  | nil => simp
  | cons t ts ih =>
    obtain ⟨ht, hts⟩ := List.pairwise_cons.1 hpairwise
    rw [List.countP_cons]
    split
    · rename_i hholds
      -- the tokens behind `t` start behind the byte
      have hnone : ts.countP (fun u => u.range.holds offset) = 0 := by
        refine List.countP_eq_zero.2 fun u hu => ?_
        have hle : t.range.stop.offset ≤ u.range.start.offset := ht u hu
        simp only [Range.holds, Bool.and_eq_true, decide_eq_true_eq] at hholds ⊢
        omega
      rw [hnone]
    · exact ih hts

/-- Every byte of a text belongs to a character. -/
theorem exists_char_at (h : offset < byteLength text) :
    ∃ before c after, text = before ++ c :: after ∧ byteLength before ≤ offset ∧
      offset < byteLength (before ++ [c]) := by
  induction text generalizing offset with
  | nil => simp at h
  | cons x text ih =>
    by_cases hx : offset < x.utf8Size
    · exact ⟨[], x, text, rfl, Nat.zero_le _, by simpa using hx⟩
    · rw [byteLength_cons] at h
      have hrest : offset - x.utf8Size < byteLength text := by omega
      obtain ⟨before, c, after, rfl, hle, hlt⟩ := ih hrest
      refine ⟨x :: before, c, after, rfl, ?_, ?_⟩
      · rw [byteLength_cons]
        omega
      · rw [List.cons_append, byteLength_cons]
        omega

/-- **The tokens of a text lose nothing of it.** Every byte of a text belongs to a
character `c` of it. The byte lies in exactly one token range, or it lies in none and `c`
is one that no token needs to hold. Any other character is one of a token, at its
place. -/
theorem bytes_segmented (d : Dialect) (text : String) (offset : Nat)
    (h : offset < byteLength text.toList) :
    ∃ before c after, text.toList = before ++ c :: after ∧
      byteLength before ≤ offset ∧ offset < byteLength (before ++ [c]) ∧
      (holders (tokenize d text).tokens offset = 1 ∨
        holders (tokenize d text).tokens offset = 0 ∧
          Skipped (tokenize d text).tokens before c after) ∧
      (¬ Skipped (tokenize d text).tokens before c after →
        ∃ t ∈ (tokenize d text).tokens, t.HoldsAt before c) := by
  obtain ⟨trailing, l, hlaid⟩ := laidOut_retokenize d [] text
  rw [retokenize_nil] at hlaid
  obtain ⟨before, c, after, htext, hle, hlt⟩ := exists_char_at h
  have hcovers := hlaid.covers htext
  have hone := hlaid.holders_le_one offset
  refine ⟨before, c, after, htext, hle, hlt, ?_, fun hnot => hcovers.resolve_right hnot⟩
  rcases hcovers with ⟨t, ht, hholds⟩ | hskipped
  · have hpos : 0 < holders (tokenize d text).tokens offset :=
      List.countP_pos_iff.2 ⟨t, ht, hlaid.holds ht hholds hle hlt⟩
    exact Or.inl (by omega)
  · by_cases hzero : holders (tokenize d text).tokens offset = 0
    · exact Or.inr ⟨hzero, hskipped⟩
    · exact Or.inl (by omega)

/-- The second byte of an `é` in a header lies in the header, and the one of an `é` behind
it is left out. -/
theorem bytes_segmented_header :
    holders (tokenize .systemd "[é] é\r\nA=b").tokens 2 = 1 ∧
    holders (tokenize .systemd "[é] é\r\nA=b").tokens 6 = 0 ∧
    ∃ before c after, "[é] é\r\nA=b".toList = before ++ c :: after ∧
      byteLength before ≤ 6 ∧ 6 < byteLength (before ++ [c]) ∧
      Skipped (tokenize .systemd "[é] é\r\nA=b").tokens before c after := by
  have hnone : holders (tokenize .systemd "[é] é\r\nA=b").tokens 6 = 0 := by decide +kernel
  obtain ⟨before, c, after, htext, hle, hlt, hcount, -⟩ :=
    bytes_segmented .systemd "[é] é\r\nA=b" 6 (by decide)
  refine ⟨by decide +kernel, hnone, before, c, after, htext, hle, hlt, ?_⟩
  exact (hcount.resolve_left (by rw [hnone]; decide)).2

end UnitFile
