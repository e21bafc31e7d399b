import UnitFile.Cursor
import UnitFile.Proofs.Lines
import UnitFile.Proofs.Steps
/-!
# Texts that grow

What has been read is not taken back when a text goes on. All tokens but the last
one stay as they are (`dropLast_tokens_append`), and the last one can only become
longer (`outgrows_append`), as long as the text is not cut between the `\r` and the
`\n` of one break. Read at such a cut, the `\r` would belong to the last token, and
with the `\n` behind it to the break.

The token that is being typed at a cursor is the last token of the text before it.
So it is the beginning of a token of the whole text (`typed_extends`).
-/

namespace UnitFile

open Lexer Text

variable {d : Dialect}

/-- A cut goes between the `\r` and the `\n` of one line break. -/
def SplitsBreak (before after : List Char) : Prop :=
  before.getLast? = some '\r' ∧ after.head? = some '\n'

instance (before after : List Char) : Decidable (SplitsBreak before after) :=
  inferInstanceAs (Decidable (_ ∧ _))

/-- The tokens of a text, as the machine has found them. -/
theorem tokens_tokenize (d : Dialect) (text : String) :
    (tokenize d text).tokens = (Machine.run d {} (symbols text.toList)).tokens := rfl

/-- **What goes on after a cut is read on from where the cut leads**, unless the cut
goes through a break. -/
theorem run_append_text (d : Dialect) {before after : List Char}
    (h : ¬ SplitsBreak before after) :
    Machine.run d {} (symbols (before ++ after)) =
      (Machine.run d {} (symbols before)).run d (symbols after) := by
  have hcut : before.getLast? = some '\r' → after.head? ≠ some '\n' :=
    fun hr hn => h ⟨hr, hn⟩
  rw [symbols_append _ _ hcut, Machine.run_append]

/-- **The last token only becomes longer.** -/
theorem outgrows_append (d : Dialect) {t u : String} (h : ¬ SplitsBreak t.toList u.toList) :
    Outgrows (tokenize d t).tokens (tokenize d (t ++ u)).tokens := by
  rw [tokens_tokenize, tokens_tokenize, String.toList_append, run_append_text d h]
  exact Machine.outgrows_run (Machine.steady_start.run _) _

/-- A `\r` before a cut and a `\n` after it are read as one break. -/
theorem symbols_split_break (front rest : List Char) :
    symbols (front ++ ['\r']) = symbols front ++ [.char '\r'] ∧
      symbols (front ++ ['\r'] ++ '\n' :: rest) =
        symbols front ++ .lineBreak .crlf :: symbols rest := by
  constructor
  · rw [symbols_append _ _ (by simp)]
    rfl
  · rw [List.append_assoc, symbols_append _ _ (by simp)]
    rfl

/-- **All tokens but the last one stay as they are.** -/
theorem dropLast_tokens_append (d : Dialect) (t u : String) :
    (tokenize d t).tokens.dropLast <+: (tokenize d (t ++ u)).tokens := by
  by_cases hcut : SplitsBreak t.toList u.toList
  · obtain ⟨hr, hn⟩ := hcut
    obtain ⟨front, hfront⟩ := List.getLast?_eq_some_iff.1 hr
    obtain ⟨rest, hrest⟩ := List.head?_eq_some_iff.1 hn
    obtain ⟨hbefore, hwhole⟩ := symbols_split_break front rest
    rw [tokens_tokenize, tokens_tokenize, String.toList_append, hfront, hrest, hbefore, hwhole,
      Machine.run_append, Machine.run_append, Machine.run_cons, Machine.run_cons, Machine.run_nil]
    have hm : Machine.Steady (Machine.run d {} (symbols front)) := Machine.steady_start.run _
    generalize Machine.run d {} (symbols front) = m at hm
    -- the `\r` adds at most one token, and the break settles those before it
    have hlast := (Machine.tokenStep_feed (d := d) hm (.char '\r')).dropLast_first hm
    have hsteady : Machine.Steady (m.feed d (.lineBreak .crlf)) := hm.feed _
    exact hlast.trans (Machine.finished_prefix_run hsteady (symbols rest))
  · exact (outgrows_append d hcut).dropLast_first

/-- The token at the place of the last one extends it. -/
theorem exists_extends_last {ts us : List Token} {t : Token} (h : Outgrows ts us)
    (ht : ts.getLast? = some t) : ∃ u, us[ts.length - 1]? = some u ∧ t.Extends u := by
  obtain ⟨init, rfl⟩ := List.getLast?_eq_some_iff.1 ht
  obtain ⟨u, more, rfl, htu⟩ := h init t rfl
  exact ⟨u, by simp, htu⟩

/-! ## The token at a cursor -/

/-- The context of a cursor between two parts of a text comes from the first part. -/
theorem cursorContext_of_split {text : String} {offset : Nat} {before after : List Char}
    (h : splitAtByte? offset text.toList = some (before, after)) :
    cursorContext d text offset = .ok
      (CursorContext.ofTokens (tokenize d (String.ofList before)).tokens
        (tokenize d (String.ofList before)).forecast offset) := by
  unfold cursorContext
  rw [h]

/-- The token being typed is the last one before the cursor. -/
theorem getLast?_of_typed {tokens : List Token} {forecast : Kind} {offset : Nat} {t : Token}
    (h : (CursorContext.ofTokens tokens forecast offset).typed = some t) :
    tokens.getLast? = some t :=
  (Option.filter_eq_some_iff.1 h).1

/-- **The token being typed is the beginning of a token of the whole text.** -/
theorem typed_extends {text : String} {offset : Nat} {before after : List Char} {t : Token}
    (hsplit : splitAtByte? offset text.toList = some (before, after))
    (hcut : ¬ SplitsBreak before after)
    (ht : (CursorContext.ofTokens (tokenize d (String.ofList before)).tokens
      (tokenize d (String.ofList before)).forecast offset).typed = some t) :
    ∃ u ∈ (tokenize d text).tokens, t.Extends u := by
  have htext : text = String.ofList before ++ String.ofList after := by
    rw [← String.ofList_append, ← (splitAtByte?_eq_some hsplit).1, String.ofList_toList]
  have hout : Outgrows (tokenize d (String.ofList before)).tokens (tokenize d text).tokens := by
    rw [htext]
    exact outgrows_append d (by simpa using hcut)
  obtain ⟨u, hu, htu⟩ := exists_extends_last hout (getLast?_of_typed ht)
  exact ⟨u, List.mem_of_getElem? hu, htu⟩

/-- **A longer text never rewrites what is settled.** All tokens of a text but the
last stay when the text goes on. Unless the text is cut within a break, there is a
token in the place of the last one, of its kind and start, whose text begins with
that of the last one. So at every place of a text but within a break a cursor has a
context, and the token being typed there is the beginning of a token of the text. -/
theorem settled_tokens_stay (d : Dialect) :
    (∀ t u : String, (tokenize d t).tokens.dropLast <+: (tokenize d (t ++ u)).tokens) ∧
    (∀ t u : String, ¬ SplitsBreak t.toList u.toList →
      ∀ last, (tokenize d t).tokens.getLast? = some last →
        ∃ grown, (tokenize d (t ++ u)).tokens[(tokenize d t).tokens.length - 1]? = some grown ∧
          grown.kind = last.kind ∧ grown.range.start = last.range.start ∧
          last.text.toList <+: grown.text.toList) ∧
    (∀ (text : String) (offset : Nat) (before after : List Char),
      splitAtByte? offset text.toList = some (before, after) → ¬ SplitsBreak before after →
      ∃ context, cursorContext d text offset = .ok context ∧
        ∀ typed, context.typed = some typed →
          ∃ grown ∈ (tokenize d text).tokens,
            grown.kind = typed.kind ∧ grown.range.start = typed.range.start ∧
            typed.text.toList <+: grown.text.toList) := by
  refine ⟨dropLast_tokens_append d, fun t u hcut last hlast => ?_,
    fun text offset before after hsplit hcut => ?_⟩
  · obtain ⟨grown, hgrown, hext⟩ := exists_extends_last (outgrows_append d hcut) hlast
    exact ⟨grown, hgrown, hext.kind, hext.start, hext.text⟩
  · refine ⟨_, cursorContext_of_split hsplit, fun typed htyped => ?_⟩
    obtain ⟨grown, hgrown, hext⟩ := typed_extends hsplit hcut htyped
    exact ⟨grown, hgrown, hext.kind, hext.start, hext.text⟩

/-- A value goes on after a blank at the end of the text, and a cursor within a
continued line types a part of what the line holds. -/
theorem settled_tokens_stay_continued :
    (∃ grown, (tokenize .systemd ("[A]\nB=x " ++ "y\\\n  z")).tokens[
        (tokenize .systemd "[A]\nB=x ").tokens.length - 1]? = some grown ∧
      grown.kind = .value ∧ grown.range.start = ⟨6, 1, 2⟩ ∧ "x".toList <+: grown.text.toList) ∧
    ∃ context, cursorContext .systemd "B=\\\r\n  zz" 8 = .ok context ∧
      ∀ typed, context.typed = some typed →
        ∃ grown ∈ (tokenize .systemd "B=\\\r\n  zz").tokens,
          grown.kind = typed.kind ∧ grown.range.start = typed.range.start ∧
          typed.text.toList <+: grown.text.toList :=
  ⟨(settled_tokens_stay .systemd).2.1 "[A]\nB=x " "y\\\n  z" (by decide)
      ⟨.value, ⟨⟨6, 1, 2⟩, ⟨7, 1, 3⟩⟩, "x"⟩ (by decide +kernel),
    (settled_tokens_stay .systemd).2.2 "B=\\\r\n  zz" 8 "B=\\\r\n  z".toList ['z']
      (by decide +kernel) (by decide)⟩

end UnitFile
