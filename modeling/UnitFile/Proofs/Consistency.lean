import Mathlib.Data.List.Chain
import UnitFile.Check
import UnitFile.Proofs.LaidOut
/-!
# Consistent token lists

What `findFlaw?` asks of a token list is spelled out by `findFlaw?_eq_none_iff`: every
token is consistent with the text, and the tokens are in order.

Reading with earlier tokens always gives tokens that are slices of the text and in
order, whatever the earlier tokens are (`retokenize_consistent`). Lines and columns are
a matter of trust, which takes a token to be on one line without looking into its text.
So there the earlier tokens have to hold no `\n`, and then the list has no flaw.
-/

namespace UnitFile

open Lexer Text Grammar

/-! ## What the check asks for -/

theorem LineIndex.confirms_iff {ix : LineIndex} {l : Location} :
    ix.confirms l = true ↔ ix.locate l.offset = .ok l := by
  unfold LineIndex.confirms
  split
  · rename_i found hfound
    rw [hfound, beq_iff_eq, Except.ok.injEq]
  · rename_i e he
    simp [he]

/-- A token that is consistent with a text. -/
structure Token.Consistent (text : List Char) (t : Token) : Prop where
  visible : t.kind.isVisible = true
  ne_empty : t.text ≠ ""
  slice : slice? t.range.start.offset t.range.stop.offset text = some t.text.toList
  oneLine : t.range.start.line = t.range.stop.line
  start : (LineIndex.ofChars text).locate t.range.start.offset = .ok t.range.start
  stop : (LineIndex.ofChars text).locate t.range.stop.offset = .ok t.range.stop

variable {text : List Char} {previous : Nat} {t : Token} {ts : List Token}

/-- A check with something to report finds nothing exactly if its condition fails and
the checks after it find nothing. -/
theorem ite_some_eq_none {p : Prop} [Decidable p] {f : Flaw} {o : Option Flaw} :
    (if p then some f else o) = none ↔ ¬ p ∧ o = none := by
  by_cases hp : p <;> simp [hp]

theorem tokenFlaw?_eq_none_iff :
    tokenFlaw? text (LineIndex.ofChars text) previous t = none ↔
      t.Consistent text ∧ previous ≤ t.range.start.offset := by
  unfold tokenFlaw?
  rw [ite_some_eq_none, ite_some_eq_none]
  cases hslice : slice? t.range.start.offset t.range.stop.offset text with
  | none =>
    have hnot : ¬ t.Consistent text := fun h => by simpa [hslice] using h.slice
    simp [hnot]
  | some part =>
    simp only [ite_some_eq_none, Bool.or_eq_true, Bool.not_eq_true', not_or, Bool.not_eq_false,
      LineIndex.confirms_iff, not_not, not_lt, and_true]
    constructor
    · rintro ⟨hvisible, hempty, rfl, hline, ⟨hstart, hstop⟩, hle⟩
      exact ⟨⟨hvisible, by simpa using hempty, hslice, hline, hstart, hstop⟩, hle⟩
    · rintro ⟨⟨hvisible, hempty, hpart, hline, hstart, hstop⟩, hle⟩
      exact ⟨hvisible, by simpa using hempty, Option.some.inj (hslice.symm.trans hpart), hline,
        ⟨hstart, hstop⟩, hle⟩

theorem flawAfter?_eq_none_iff :
    flawAfter? text (LineIndex.ofChars text) previous ts = none ↔
      (∀ t ∈ ts, t.Consistent text) ∧ ts.IsChain Token.Before ∧
        ∀ t ∈ ts.head?, previous ≤ t.range.start.offset := by
  induction ts generalizing previous with
  | nil => simp [flawAfter?]
  | cons t ts ih =>
    rw [flawAfter?, Option.or_eq_none_iff, tokenFlaw?_eq_none_iff, ih, List.isChain_cons]
    constructor
    · rintro ⟨⟨ht, hle⟩, hts, hchain, hhead⟩
      exact ⟨List.forall_mem_cons.2 ⟨ht, hts⟩, ⟨hhead, hchain⟩, by simpa using hle⟩
    · rintro ⟨hall, ⟨hhead, hchain⟩, hle⟩
      obtain ⟨ht, hts⟩ := List.forall_mem_cons.1 hall
      exact ⟨⟨ht, by simpa using hle⟩, hts, hchain, hhead⟩

/-- **A token list has no flaw** if every token is consistent with the text and the
tokens are in order. -/
theorem findFlaw?_eq_none_iff {text : String} :
    findFlaw? text ts = none ↔
      (∀ t ∈ ts, t.Consistent text.toList) ∧ ts.IsChain Token.Before := by
  rw [findFlaw?, flawAfter?_eq_none_iff]
  simp

/-! ## Tokens laid out -/

section LaidOut

variable {earlier : List Token} {trailing : Bool} {l : Location}

theorem Lexer.LaidOut.isChain (h : LaidOut earlier trailing text l ts) :
    ts.IsChain Token.Before :=
  h.pairwise.isChain

/-- If the earlier tokens are parts of lines, all tokens laid out are. -/
theorem Lexer.LaidOut.onLine (h : LaidOut earlier trailing text l ts)
    (hearlier : ∀ t ∈ earlier, t.OnLine) (ht : t ∈ ts) : t.OnLine := by
  obtain ⟨us, vs, rfl⟩ := List.append_of_mem ht
  obtain ⟨-, -, -, -, -, -, hsound⟩ := h.exists_split
  exact hsound.onLine.elim (hearlier t) id

/-- **Tokens laid out are consistent with the text**, if the earlier ones are parts of
lines. -/
theorem Lexer.LaidOut.consistent (h : LaidOut earlier trailing text l ts)
    (hearlier : ∀ t ∈ earlier, t.OnLine) (ht : t ∈ ts) : t.Consistent text := by
  have honLine := h.onLine hearlier ht
  have hslice := h.slice_eq ht
  obtain ⟨us, vs, rfl⟩ := List.append_of_mem ht
  obtain ⟨trailing', before, after, hbefore, rfl, hstop, hsound⟩ := h.exists_split
  -- the tokens before `t` are parts of lines too, so its start is counted right
  have hstart : t.range.start = ({} : Location).across before :=
    hbefore.across_eq fun u hu => (h.onLine hearlier (List.mem_append_left _ hu)).oneLine
  have hcounted : t.range.stop = ({} : Location).across (before ++ t.text.toList) := by
    rw [hstop, hstart, Location.across_append, Location.across_of_notMem honLine.oneLine]
  have hoffset : t.range.stop.offset = byteLength (before ++ t.text.toList) := by
    rw [hstop, Location.past_offset, hbefore.offset_eq, byteLength_append]
  refine ⟨hsound.visible, fun hempty => honLine.ne_nil (by simp [hempty]), hslice, ?_, ?_, ?_⟩
  · rw [hstop, Location.past_line]
  · rw [hbefore.offset_eq, List.append_assoc, LineIndex.locate_append, ← hstart]
  · rw [hoffset, LineIndex.locate_append, ← hcounted]

end LaidOut

/-! ## Reading with earlier tokens -/

/-- **Whatever the earlier tokens are, the result is well-formed.** The place to resume
at cuts the text between two characters, every token is a slice of the text, and each
one starts at or after the end of the one before. If the earlier tokens have texts that
are not empty and hold no `\n`, the list of tokens has no flaw. -/
theorem retokenize_consistent (d : Dialect) (earlier : List Token) (text : String) :
    isBoundary (resumePoint d text.toList earlier).start.offset text.toList = true ∧
    (∀ t ∈ (retokenize d earlier text).tokens,
      slice? t.range.start.offset t.range.stop.offset text.toList = some t.text.toList) ∧
    ((retokenize d earlier text).tokens.IsChain fun t u =>
      t.range.stop.offset ≤ u.range.start.offset) ∧
    ((∀ t ∈ earlier, t.text ≠ "" ∧ '\n' ∉ t.text.toList) →
      findFlaw? text (retokenize d earlier text).tokens = none) := by
  obtain ⟨trailing, l, hlaid⟩ := laidOut_retokenize d earlier text
  refine ⟨?_, fun t ht => hlaid.slice_eq ht, hlaid.isChain, fun hearlier => ?_⟩
  · obtain ⟨kind, before, after, htext, hkept⟩ := laidOut_kept d earlier text
    rw [hkept.offset_eq, htext, isBoundary, splitAtByte?_append]
    rfl
  · have honLine : ∀ t ∈ earlier, t.OnLine := fun t ht =>
      ⟨fun hnil => (hearlier t ht).1 (by simpa using hnil), (hearlier t ht).2⟩
    exact findFlaw?_eq_none_iff.2 ⟨fun t ht => hlaid.consistent honLine ht, hlaid.isChain⟩

/-- A token of an impossible kind is kept, and the blank and the line break behind it are
crossed, with a key trusted on the line below and a stale token after it. -/
theorem retokenize_consistent_forged :
    findFlaw? "é \r\nB=1" (retokenize .mkosi
      [⟨.assignment, ⟨{}, ⟨2, 0, 2⟩⟩, "é"⟩, ⟨.key, ⟨⟨5, 1, 0⟩, ⟨6, 1, 1⟩⟩, "B"⟩,
        ⟨.comment, ⟨⟨1, 7, 9⟩, {}⟩, "?"⟩] "é \r\nB=1").tokens = none ∧
    (retokenize .mkosi
      [⟨.assignment, ⟨{}, ⟨2, 0, 2⟩⟩, "é"⟩, ⟨.key, ⟨⟨5, 1, 0⟩, ⟨6, 1, 1⟩⟩, "B"⟩,
        ⟨.comment, ⟨⟨1, 7, 9⟩, {}⟩, "?"⟩] "é \r\nB=1").tokens.map (fun t => (t.kind, t.text)) =
      [(.assignment, "é"), (.key, "B"), (.assignment, "="), (.value, "1")] :=
  ⟨(retokenize_consistent .mkosi _ _).2.2.2 (by decide), by decide +kernel⟩

end UnitFile
