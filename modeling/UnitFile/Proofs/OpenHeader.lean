import UnitFile.Proofs.CursorAgreement
import UnitFile.Proofs.Places
/-!
# A cursor in an open header

While a section header is being typed, the cursor stands in the section of the headers
above. The context leaves the header under way out, but it knows it only by its end: the
header has to end at the cursor. A header ends behind its last character that is not
blank. So right behind a blank the context takes the unfinished header itself for the
section the cursor is in (`open_header_context`).

What the text before the cursor holds is read off its last line (`ReadTo`). Where a header
is forecast, that line is an unfinished header and nothing else (`Reads.openHeader_of_forecast`).
-/

namespace UnitFile

open Lexer Text Grammar

namespace Grammar

variable {d : Dialect} {carried assigned : Bool} {l : Location} {line : List Char}
variable {r : LineReading}

/-! ## The last line of a text -/

/-- All tokens so far start on lines above. -/
def Progress.AllAbove (p : Progress) : Prop :=
  ∀ t ∈ p.tokens, t.startLine < p.here.line

theorem Progress.AllAbove.next {p : Progress} (h : p.AllAbove) (ln : Line) :
    (p.next d ln).AllAbove := by
  intro t ht
  have hline : (p.next d ln).here.line = p.here.line + 1 := rfl
  rw [next_tokens] at ht
  rcases List.mem_append.1 ht with ht | ht
  · have hlt := h t ht
    omega
  · have heq : t.startLine = p.here.line := ((reads_reading d p ln.chars).line_eq ht).1
    omega

/-- The text is read up to its last line, where `q` goes on. -/
structure ReadTo (d : Dialect) (p : Progress) (text : List Char) (q : Progress)
    (line : List Char) : Prop where
  read : p.read d text = q.finish d line
  split : ∃ front, text = front ++ line ∧ q.here = p.here.across front
  oneLine : '\n' ∉ line
  allAbove : p.AllAbove → q.AllAbove

/-- **Every text is read up to its last line.** -/
theorem exists_readTo (d : Dialect) (p : Progress) (text : List Char) :
    ∃ q line, ReadTo d p text q line := by
  induction text using lines_induction generalizing p with
  | last cs hcs =>
    exact ⟨p, cs, Progress.read_of_notMem d p hcs, ⟨[], rfl, rfl⟩, hcs, id⟩
  | line ln hln rest ih =>
    obtain ⟨q, line, hread, ⟨front, rfl, hhere⟩, hone, habove⟩ := ih (p.next d ln)
    refine ⟨q, line, ?_, ⟨ln.whole ++ front, by simp, ?_⟩, hone, fun hp => habove (hp.next ln)⟩
    · rw [Progress.read_whole_append d p hln, hread]
    · rw [hhere, Location.across_append, Location.across_whole hln, Progress.next_here]

/-- The last line starts on as low a line as there are breaks in the text. -/
theorem ReadTo.line_eq {p q : Progress} {text : List Char} (h : ReadTo d p text q line) :
    q.here.line = p.here.line + text.count '\n' := by
  obtain ⟨front, rfl, hhere⟩ := h.split
  rw [hhere, Location.across_line, List.count_append, List.count_eq_zero_of_not_mem h.oneLine]
  rfl

/-- And the text ends as many bytes behind as the line has. -/
theorem ReadTo.offset_eq {p q : Progress} {text : List Char} (h : ReadTo d p text q line) :
    q.here.offset + byteLength line = p.here.offset + byteLength text := by
  obtain ⟨front, rfl, hhere⟩ := h.split
  rw [hhere, Location.across_offset, byteLength_append]
  omega

/-! ## Where a header is forecast -/

/-- **A line on which a header is forecast** is a header that has not been closed, with
blanks around it. -/
theorem Reads.openHeader_of_forecast (h : Reads d carried assigned l line r)
    (hf : r.forecast = .header) :
    ∃ indent name tail, line = indent ++ name ++ tail ∧ Solid name ∧ AllBlank tail ∧
      r.tokens = [tokenOf .header (l.past indent) name] := by
  cases h with
  | blank => split at hf <;> simp at hf
  | openHeader hi htaken hs hname htail => exact ⟨_, _, _, rfl, hs, htail, rfl⟩
  | _ => simp at hf

/-- A solid part has no blanks behind it exactly if a text with it does not end blank. -/
theorem Solid.endsBlank_iff {front v tail : List Char} (hv : Solid v) (htail : AllBlank tail) :
    (front ++ v ++ tail).getLast?.any isBlank = false ↔ tail = [] := by
  constructor
  · intro hend
    by_contra hne
    obtain ⟨init, c, rfl⟩ := (List.eq_nil_or_concat tail).resolve_left hne
    have hc : isBlank c = true := htail c (by simp)
    rw [List.concat_eq_append, ← List.append_assoc, List.getLast?_concat] at hend
    simp [hc] at hend
  · rintro rfl
    rw [List.append_nil, List.getLast?_append_of_ne_nil _ hv.ne_nil]
    cases hlast : v.getLast? with
    | none => rfl
    | some c => exact hv.last c hlast

end Grammar

variable {d : Dialect} {before : List Char}

/-- **The tokens of a text that ends in an open header.** The header comes last, on the last
line, and all others are on lines above. It ends with the text unless the text ends in a
blank. -/
theorem tokens_of_open_header (hf : (tokenize d (String.ofList before)).forecast = .header) :
    ∃ above opened, (tokenize d (String.ofList before)).tokens = above ++ [opened] ∧
      opened.kind = .header ∧ opened.startLine = before.count '\n' ∧
      (∀ t ∈ above, t.startLine < before.count '\n') ∧
      (opened.range.stop.offset = byteLength before ↔ before.getLast?.any isBlank = false) := by
  obtain ⟨q, line, hto⟩ := exists_readTo d {} before
  have hread : tokenize d (String.ofList before) = q.finish d line := by
    rw [tokenize, Machine.output_start, String.toList_ofList]
    exact hto.read
  have hline : q.here.line = before.count '\n' := hto.line_eq.trans (Nat.zero_add _)
  have hoffset : q.here.offset + byteLength line = byteLength before :=
    hto.offset_eq.trans (Nat.zero_add _)
  rw [hread] at hf ⊢
  obtain ⟨indent, name, tail, rfl, hname, htail, htokens⟩ :=
    (q.reads_reading d line).openHeader_of_forecast hf
  obtain ⟨front, hfront, -⟩ := hto.split
  refine ⟨q.tokens, tokenOf .header (q.here.past indent) name, ?_, rfl, hline, ?_, ?_⟩
  · rw [Progress.finish, Progress.output, htokens]
  · rw [← hline]
    exact hto.allAbove fun t ht => absurd ht List.not_mem_nil
  · have hends : before.getLast?.any isBlank = false ↔ tail = [] := by
      rw [hfront, ← List.append_assoc, ← List.append_assoc]
      exact hname.endsBlank_iff htail
    rw [hends, ← byteLength_eq_zero, ← hoffset]
    simp only [tokenOf, Location.past_offset, byteLength_append]
    omega

/-! ## The section of the cursor -/

/-- Where a header is forecast and comes last, the context leaves it out if it ends at the
cursor. -/
theorem ofTokens_header_of_last {above : List Token} {opened : Token}
    (hk : opened.kind = .header) (offset : Nat) :
    (CursorContext.ofTokens (above ++ [opened]) .header offset).header =
      if opened.range.stop.offset = offset then lastHeader above else some opened.text := by
  unfold CursorContext.ofTokens CursorContext.typed?
  by_cases hstop : opened.range.stop.offset = offset
  · simp [hk, hstop, lastHeader]
  · simp [hk, hstop]

/-- The last section header on the lines above the end of a text. -/
def enclosingHeader (d : Dialect) (before : List Char) : Option String :=
  lastHeader ((tokenize d (String.ofList before)).tokens.filter
    fun t => t.startLine < before.count '\n')

/-- **The section in an open header.** The header on the line of the cursor is the last token
before it. The context tells the section of the headers above, but right behind a blank it
tells the open header itself. -/
theorem open_header_context (d : Dialect) (text : String) (offset : Nat) (context : CursorContext)
    (h : cursorContext d text offset = .ok context) (hkind : context.kind = .header) :
    ∃ before after opened, splitAtByte? offset text.toList = some (before, after) ∧
      (tokenize d (String.ofList before)).tokens.getLast? = some opened ∧
      opened.kind = .header ∧ opened.startLine = before.count '\n' ∧
      context.header =
        if before.getLast?.any isBlank then some opened.text else enclosingHeader d before := by
  unfold cursorContext at h
  split at h
  · contradiction
  rename_i before after hsplit
  obtain rfl := (Except.ok.inj h).symm
  have hforecast : (tokenize d (String.ofList before)).forecast = .header := hkind
  obtain ⟨above, opened, htokens, hopened, hline, habove, hends⟩ := tokens_of_open_header hforecast
  refine ⟨before, after, opened, hsplit, by rw [htokens, List.getLast?_concat], hopened, hline, ?_⟩
  have henclosing : enclosingHeader d before = lastHeader above := by
    have hkept : above.filter (fun t => t.startLine < before.count '\n') = above :=
      List.filter_eq_self.2 fun t ht => by simpa using habove t ht
    rw [enclosingHeader, htokens, List.filter_append, hkept]
    simp [hline]
  rw [← (splitAtByte?_eq_some hsplit).2, hforecast, htokens, ofTokens_header_of_last hopened,
    henclosing]
  cases hblank : before.getLast?.any isBlank with
  | false => rw [if_pos (hends.2 hblank), if_neg (by decide)]
  | true => rw [if_neg (by rw [hends, hblank]; decide), if_pos rfl]

/-- Within a header of two words, right behind the blank and behind the second word. -/
theorem open_header_context_words :
    (∃ before after opened, splitAtByte? 7 "[A]\n[B c".toList = some (before, after) ∧
      (tokenize .systemd (String.ofList before)).tokens.getLast? = some opened ∧
      opened.kind = .header ∧ opened.startLine = before.count '\n' ∧
      some "[B" = if before.getLast?.any isBlank then some opened.text
        else enclosingHeader .systemd before) ∧
    ∃ before after opened, splitAtByte? 8 "[A]\n[B c".toList = some (before, after) ∧
      (tokenize .systemd (String.ofList before)).tokens.getLast? = some opened ∧
      opened.kind = .header ∧ opened.startLine = before.count '\n' ∧
      some "[A]" = if before.getLast?.any isBlank then some opened.text
        else enclosingHeader .systemd before :=
  ⟨open_header_context .systemd "[A]\n[B c" 7 ⟨.header, some "[B", none, none⟩
      (by decide +kernel) rfl,
    open_header_context .systemd "[A]\n[B c" 8
      ⟨.header, some "[A]", none, some ⟨.header, ⟨⟨4, 1, 0⟩, ⟨8, 1, 4⟩⟩, "[B c"⟩⟩
      (by decide +kernel) rfl⟩

/-- **The section of a cursor in an open header is not always the one above.** -/
theorem open_header_mistaken :
    ¬ ∀ (d : Dialect) (text : String) (offset : Nat) (context : CursorContext)
      (before after : List Char), splitAtByte? offset text.toList = some (before, after) →
      cursorContext d text offset = .ok context → context.kind = .header →
      context.header = enclosingHeader d before := by
  intro h
  have hcase := h .systemd "[Unit]\n[Serv " 13 ⟨.header, some "[Serv", none, none⟩
    "[Unit]\n[Serv ".toList [] (by decide +kernel) (by decide +kernel) rfl
  revert hcase
  decide +kernel

end UnitFile
