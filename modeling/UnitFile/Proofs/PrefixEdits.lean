import UnitFile.Proofs.Reuse
/-!
# Edits at the end of a text

A text that is cut short, or typed on at its end, is always read right with the
tokens it had before. When the text is cut, a token that ended where it may still
does, since nothing new follows it. When the text grows, the last token may end
elsewhere, but that one is never kept: the place to resume comes after all tokens
kept, and it is in the old text. So every run of such edits gives what reading each
text from its start gives (`prefix_edits_exact`).
-/

namespace UnitFile

open Lexer Text Grammar

variable {d : Dialect}

/-! ## Texts that grow and shrink -/

namespace Lexer

variable {a b : List Char} {t : Token}

/-- A token that may end where it does still may when the text is cut. -/
theorem EndsIn.of_append (h : EndsIn (a ++ b) t) : EndsIn a t :=
  ⟨fun hk c hc => h.1 hk c (charAt?_append_of_eq_some hc b),
    fun hcr hlf => h.2 hcr (charAt?_append_of_eq_some hlf b)⟩

/-- And so it does when the text grows, unless the token is at its end. -/
theorem EndsIn.append {c : Char} (h : EndsIn a t)
    (hnext : charAt? t.range.stop.offset a = some c) : EndsIn (a ++ b) t := by
  unfold EndsIn at h ⊢
  rwa [charAt?_append_of_eq_some hnext b, ← hnext]

end Lexer

/-- A token above another one is not at the end of its text. -/
theorem exists_charAt?_stop {text : String} {t u : Token} (ht : t ∈ (tokenize d text).tokens)
    (hu : u ∈ (tokenize d text).tokens) (hle : t.range.stop.offset ≤ u.range.start.offset) :
    ∃ c, charAt? t.range.stop.offset text.toList = some c := by
  obtain ⟨front, rest, ht⟩ := exists_stands ht
  obtain ⟨front', rest', hu⟩ := exists_stands hu
  have hoffset : t.range.stop.offset = byteLength (front ++ t.text.toList) := by
    rw [ht.stop, Nat.zero_add]
  have hoffset' : u.range.start.offset = byteLength front' := by rw [hu.start, Nat.zero_add]
  have hrest : rest ≠ [] := by
    rintro rfl
    have hlen := congrArg byteLength (ht.split.symm.trans hu.split)
    have hpos : byteLength u.text.toList ≠ 0 := fun h => hu.text_ne_nil (byteLength_eq_zero.1 h)
    rw [List.append_nil, ← hoffset, byteLength_append, byteLength_append, ← hoffset'] at hlen
    omega
  obtain ⟨c, rest, rfl⟩ := List.exists_cons_of_ne_nil hrest
  exact ⟨c, by rw [hoffset, ht.split, charAt?_append]; rfl⟩

/-- **A text cut short is read right with the tokens of the whole.** -/
theorem retokenize_shrink (d : Dialect) (p u : String) :
    retokenize d (tokenize d (p ++ u)).tokens p = tokenize d p := by
  refine retokenize_of_endsIn fun t ht => ?_
  have hends := endsIn_of_mem (List.mem_of_mem_take ht)
  rw [String.toList_append] at hends
  exact hends.of_append

/-- **A text typed on is read right with the tokens it had.** -/
theorem retokenize_grow (d : Dialect) (p u : String) :
    retokenize d (tokenize d p).tokens (p ++ u) = tokenize d (p ++ u) := by
  refine retokenize_of_endsIn fun t ht => ?_
  have hmem : t ∈ (tokenize d p).tokens := List.mem_of_mem_take ht
  obtain ⟨v, hv, hle⟩ := exists_below_of_mem_kept ht
  obtain ⟨c, hc⟩ := exists_charAt?_stop hmem hv hle
  rw [String.toList_append]
  exact (endsIn_of_mem hmem).append hc

/-! ## Runs of edits -/

/-- The outputs for one text after another, each read with the tokens of the one
before. -/
def rereads (d : Dialect) : List Token → List String → List Output
  | _, [] => []
  | earlier, text :: texts =>
    retokenize d earlier text :: rereads d (retokenize d earlier text).tokens texts

/-- One text is a prefix of the other. -/
def Resized (a b : String) : Prop :=
  ∃ u, b = a ++ u ∨ a = b ++ u

/-- One edit at the end of a text is read right. -/
theorem retokenize_of_resized {a b : String} (h : Resized a b) :
    retokenize d (tokenize d a).tokens b = tokenize d b := by
  obtain ⟨u, rfl | rfl⟩ := h
  · exact retokenize_grow d a u
  · exact retokenize_shrink d b u

/-- And so is a run of them. -/
theorem rereads_of_isChain {a : String} {texts : List String}
    (h : (a :: texts).IsChain Resized) :
    rereads d (tokenize d a).tokens texts = texts.map (tokenize d) := by
  induction texts generalizing a with
  | nil => rfl
  | cons b texts ih =>
    obtain ⟨hab, hrest⟩ := List.isChain_cons_cons.1 h
    rw [rereads, retokenize_of_resized hab, ih hrest, List.map_cons]

/-- **Edits at the end of a text are read exactly.** A prefix is read right with the
tokens of the whole text, the whole with those of the prefix, and in a run of texts
each of which is a prefix or an extension of the one before every step gives what
reading that text from its start gives. -/
theorem prefix_edits_exact (d : Dialect) :
    (∀ p u : String, retokenize d (tokenize d (p ++ u)).tokens p = tokenize d p ∧
      retokenize d (tokenize d p).tokens (p ++ u) = tokenize d (p ++ u)) ∧
    ∀ texts : List String, texts.IsChain Resized →
      rereads d [] texts = texts.map (tokenize d) := by
  refine ⟨fun p u => ⟨retokenize_shrink d p u, retokenize_grow d p u⟩, fun texts h => ?_⟩
  cases texts with
  | nil => rfl
  | cons text texts =>
    rw [rereads, retokenize_nil, rereads_of_isChain h, List.map_cons]

/-- A run that types a line on, cuts it within an escaped break and types it on
again. -/
theorem prefix_edits_exact_typed :
    rereads .systemd [] ["[A]\nB=1\\\r\n", "[A]\nB=1\\\r\n 2\nC", "[A]\nB=1\\\r"] =
      ["[A]\nB=1\\\r\n", "[A]\nB=1\\\r\n 2\nC", "[A]\nB=1\\\r"].map (tokenize .systemd) :=
  (prefix_edits_exact .systemd).2 _
    (.cons_cons ⟨" 2\nC", Or.inl rfl⟩ (.cons_cons ⟨"\n 2\nC", Or.inr rfl⟩ (.singleton _)))

end UnitFile
