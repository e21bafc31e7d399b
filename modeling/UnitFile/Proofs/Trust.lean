import UnitFile.Lexer.Resume
import UnitFile.Proofs.Respacing
/-!
# What trust in a token says

A token of an earlier text is trusted in a new one for its own text and the gap
before it (`afterTrusted?`). This file reads that off: trusted tokens are found in
the new text one after the other, with inert gaps between them (`Found`), and a
gap within a line differs from one over a break (`crossGap?_line`,
`crossGap?_break`). `Found.cross_line` then takes the new text one line at a time:
the tokens found on a line are shown by it.

Trust does not look at what comes right after a token, so that every token ends
where it may (`EndsIn`) is asked for apart.
-/

namespace UnitFile

open Lexer Text Grammar

/-! ## The character at an offset -/

/-- The character at a byte offset of a text. -/
def Text.charAt? (offset : Nat) (cs : List Char) : Option Char :=
  (splitAtByte? offset cs).bind fun cut => cut.2.head?

@[simp] theorem Text.charAt?_append (a b : List Char) :
    charAt? (byteLength a) (a ++ b) = b.head? := by
  simp [charAt?]

/-- A character stays where it is when a text grows. -/
theorem Text.charAt?_append_of_eq_some {offset : Nat} {a : List Char} {c : Char}
    (h : charAt? offset a = some c) (b : List Char) : charAt? offset (a ++ b) = some c := by
  obtain ⟨⟨front, back⟩, hcut, hhead⟩ := Option.bind_eq_some_iff.1 h
  obtain ⟨rfl, rfl⟩ := splitAtByte?_eq_some hcut
  rw [List.append_assoc, charAt?_append, List.head?_append, hhead, Option.some_or]

namespace Lexer

variable {d : Dialect} {l l' : Location} {text gap rest : List Char} {t u : Token}
variable {escaped trailing : Bool} {ts : List Token}

/-- A token may end where it does in a text: a comment before no blank, and one
that ends in `\r` before no `\n`. -/
def EndsIn (text : List Char) (t : Token) : Prop :=
  (t.kind = .comment → ∀ c ∈ charAt? t.range.stop.offset text, isBlank c = false) ∧
    (t.text.toList.getLast? = some '\r' → charAt? t.range.stop.offset text ≠ some '\n')

theorem endsIn_iff {before after : List Char}
    (h : t.range.stop.offset = byteLength before) :
    EndsIn (before ++ after) t ↔ EndsBefore t after := by
  rw [EndsIn, EndsBefore, h, charAt?_append]

/-! ## Gaps -/

/-- Characters of a gap are blank, or trail a section header. -/
theorem crossGap?_chars {cs : List Char} {ss : List Symbol} :
    crossGap? trailing l (cs.map .char ++ ss) = some l' ↔
      (trailing = true ∨ AllBlank cs) ∧ crossGap? trailing (l.past cs) ss = some l' := by
  induction cs generalizing l with
  | nil => simp [AllBlank]
  | cons c cs ih =>
    rw [List.map_cons, List.cons_append, crossGap?]
    by_cases hc : (isBlank c || trailing) = true
    · rw [if_pos hc, ih, Location.past_cons]
      cases trailing <;> simp_all [AllBlank]
    · rw [if_neg hc]
      cases trailing <;> simp_all [AllBlank]

/-- A gap within a line. -/
theorem crossGap?_of_notMem (h : '\n' ∉ gap) :
    crossGap? trailing l (symbols gap) = some l' ↔
      (trailing = true ∨ AllBlank gap) ∧ l.past gap = l' := by
  rw [symbols_of_notMem h, ← List.append_nil (gap.map _), crossGap?_chars, crossGap?,
    Option.some_inj]

/-- A gap over a line break. -/
theorem crossGap?_whole_append {ln : Line} (h : ln.Proper) :
    crossGap? trailing l (symbols (ln.whole ++ gap)) = some l' ↔
      (trailing = true ∨ AllBlank ln.chars) ∧
        crossGap? false ((l.past ln.chars).nextLine ln.stop.width) (symbols gap) = some l' := by
  rw [symbols_whole_append h, crossGap?_chars, crossGap?]

/-- **A gap leads as many bytes on as it has, and never to a line above.** -/
theorem crossGap?_le (h : crossGap? trailing l (symbols gap) = some l') :
    l'.offset = l.offset + byteLength gap ∧ l.line ≤ l'.line := by
  induction gap using lines_induction generalizing l trailing with
  | last gap hgap =>
    obtain ⟨-, rfl⟩ := (crossGap?_of_notMem hgap).1 h
    exact ⟨rfl, Nat.le_refl _⟩
  | line ln hln gap ih =>
    obtain ⟨hoffset, hline⟩ := ih ((crossGap?_whole_append hln).1 h).2
    simp only [Location.nextLine_offset, Location.past_offset, Location.nextLine_line,
      Location.past_line] at hoffset hline
    refine ⟨?_, by omega⟩
    rw [hoffset, Line.whole, byteLength_append, byteLength_append, LineBreak.byteLength_chars]
    omega

/-- **A gap that stays on its line has no break.** -/
theorem crossGap?_line (h : crossGap? trailing l (symbols gap) = some l')
    (hline : l'.line = l.line) :
    '\n' ∉ gap ∧ (trailing = true ∨ AllBlank gap) ∧ l' = l.past gap := by
  have hgap : '\n' ∉ gap := by
    intro hmem
    obtain ⟨ln, gap, rfl, hln⟩ := exists_line hmem
    have hle := (crossGap?_le ((crossGap?_whole_append hln).1 h).2).2
    simp only [Location.nextLine_line, Location.past_line] at hle
    omega
  obtain ⟨hblank, rfl⟩ := (crossGap?_of_notMem hgap).1 h
  exact ⟨hgap, hblank, rfl⟩

/-- **A gap that leads to a line below ends the line it begins on.** -/
theorem crossGap?_break (h : crossGap? trailing l (symbols gap) = some l')
    (hline : l.line < l'.line) :
    ∃ ln : Line, ∃ gap', gap = ln.whole ++ gap' ∧ ln.Proper ∧
      (trailing = true ∨ AllBlank ln.chars) ∧
      crossGap? false ((l.past ln.chars).nextLine ln.stop.width) (symbols gap') = some l' := by
  have hgap : '\n' ∈ gap := by
    by_contra hgap
    obtain ⟨-, rfl⟩ := (crossGap?_of_notMem hgap).1 h
    simp at hline
  obtain ⟨ln, gap', rfl, hln⟩ := exists_line hgap
  exact ⟨ln, gap', rfl, hln, (crossGap?_whole_append hln).1 h⟩

/-! ## Trusted tokens -/

/-- A token is found in a text after an inert gap. The flags say that the gap comes
after an escaped line end, and after a section header. -/
structure FoundNext (escaped trailing : Bool) (l : Location) (text : List Char) (t : Token)
    (gap rest : List Char) : Prop where
  split : text = gap ++ t.text.toList ++ rest
  head : escaped = true → ∀ c ∈ gap.head?, c = '\n'
  crossed : crossGap? trailing l (symbols gap) = some t.range.start
  stop : t.range.stop = t.range.start.past t.text.toList

/-- The tokens `ts`, and `u` after them, are found in a text one after the other.
Each of `ts` ends where it may. -/
inductive Found (d : Dialect) (u : Token) :
    Bool → Bool → Location → List Char → List Token → Prop
  | last {escaped trailing : Bool} {l : Location} {text gap rest : List Char}
      (hu : FoundNext escaped trailing l text u gap rest) : Found d u escaped trailing l text []
  | cons {escaped trailing : Bool} {l : Location} {text gap rest : List Char} {t : Token}
      {ts : List Token} (ht : FoundNext escaped trailing l text t gap rest)
      (hends : EndsBefore t rest)
      (hrest : Found d u (endsEscaped d t) (isClosedHeader t) t.range.stop rest ts) :
      Found d u escaped trailing l text (t :: ts)

/-- **What trust in one token looks at**: the gap before it, its place and its text. -/
theorem afterTrusted?_eq_some {before : Option Token}
    (h : afterTrusted? d before text t = some rest) :
    ∃ gap, text = gap ++ t.text.toList ++ rest ∧
      isInertGap d before gap t.range.start = true ∧ isWellPlaced t = true := by
  unfold afterTrusted? at h
  dsimp only at h
  split at h
  · simp at h
  obtain ⟨⟨gap, behind⟩, hcut, h⟩ := Option.bind_eq_some_iff.1 h
  split at h
  · simp at h
  · rename_i hok
    simp only [Bool.not_eq_true', Bool.not_eq_false, Bool.and_eq_true] at hok
    have hbehind : behind = t.text.toList ++ rest := afterStart?_eq_some.1 h
    refine ⟨gap, ?_, hok.1, hok.2⟩
    rw [(splitAtByte?_eq_some hcut).1, hbehind, List.append_assoc]

/-- **A trusted token is found.** -/
theorem foundNext_of_afterTrusted? {before : Option Token}
    (h : afterTrusted? d before text t = some rest) :
    ∃ gap, FoundNext (before.any (endsEscaped d)) (before.any isClosedHeader) (gapStart before)
      text t gap rest := by
  obtain ⟨gap, hsplit, hinert, hplaced⟩ := afterTrusted?_eq_some h
  simp only [Bool.and_eq_true, isInertGap, isWellPlaced, beq_iff_eq] at hinert hplaced
  refine ⟨gap, hsplit, ?_, hinert.2, hplaced.2⟩
  intro hescaped c hc
  simpa [hescaped, Option.mem_def.1 hc] using hinert.1

/-- And it is visible. -/
theorem visible_of_afterTrusted? {before : Option Token}
    (h : afterTrusted? d before text t = some rest) : t.kind.isVisible = true := by
  obtain ⟨-, -, -, hplaced⟩ := afterTrusted?_eq_some h
  exact (Bool.and_eq_true_iff.1 hplaced).1

/-- **So are any number of them**, if those before the last one end where they
may. -/
theorem found_of_trusted (before : Option Token) (front : List Char) {vs : List Token}
    (hfront : byteLength front = (gapStart before).offset)
    (h : ts.length < trustedAfter d before text (ts ++ u :: vs))
    (hends : ∀ t ∈ ts, EndsIn (front ++ text) t) :
    Found d u (before.any (endsEscaped d)) (before.any isClosedHeader) (gapStart before) text
      ts := by
  -- `front` is the text up to `before`, and offsets count from the start of the whole
  induction ts generalizing before text front with
  | nil =>
    rw [List.nil_append, trustedAfter] at h
    split at h
    · simp at h
    · rename_i rest hrest
      obtain ⟨gap, hu⟩ := foundNext_of_afterTrusted? hrest
      exact Found.last hu
  | cons t ts ih =>
    rw [List.cons_append, trustedAfter] at h
    split at h
    · simp at h
    · rename_i rest hrest
      obtain ⟨gap, ht⟩ := foundNext_of_afterTrusted? hrest
      have hoffset : t.range.stop.offset = byteLength (front ++ (gap ++ t.text.toList)) := by
        have hstart := (crossGap?_le ht.crossed).1
        rw [ht.stop, Location.past_offset, hstart, byteLength_append, byteLength_append, hfront]
        omega
      have hwhole : front ++ text = front ++ (gap ++ t.text.toList) ++ rest := by
        rw [ht.split]
        simp
      rw [hwhole] at hends
      have hlen : ts.length < trustedAfter d (some t) rest (ts ++ u :: vs) := by simpa using h
      exact Found.cons ht ((endsIn_iff hoffset).1 (hends t List.mem_cons_self))
        (ih (some t) _ hoffset.symm hlen fun x hx => hends x (List.mem_cons_of_mem _ hx))

/-! ## From line to line -/

/-- A token on a line below is found past the break of this line. -/
theorem FoundNext.cross_line (h : FoundNext escaped trailing l text t gap rest)
    (hline : l.line < t.range.start.line) :
    ∃ ln : Line, ∃ gap', text = ln.whole ++ (gap' ++ t.text.toList ++ rest) ∧ ln.Proper ∧
      (trailing = true ∨ AllBlank ln.chars) ∧
      (escaped = true → ln.chars = [] ∧ ln.stop = .lf) ∧
      FoundNext false false ((l.past ln.chars).nextLine ln.stop.width)
        (gap' ++ t.text.toList ++ rest) t gap' rest := by
  obtain ⟨ln, gap', rfl, hln, hblank, hcross⟩ := crossGap?_break h.crossed hline
  refine ⟨ln, gap', by rw [h.split]; simp, hln, hblank, fun hescaped => ?_,
    rfl, by simp, hcross, h.stop⟩
  -- the gap begins with a `\n`, which is no character of the line and no `\r`
  have hhead := h.head hescaped
  obtain ⟨chars, stop⟩ := ln
  cases chars with
  | nil => cases stop <;> simp_all [Line.whole, LineBreak.chars]
  | cons c chars =>
    have hc : c = '\n' := hhead c (by simp [Line.whole])
    exact absurd hln.1 (by simp [hc])

/-- The stop of the last of some tokens, or else the place before them. -/
def lastStop (l : Location) (ts : List Token) : Location :=
  ts.foldl (fun _ t => t.range.stop) l

/-- Whether the last of some tokens ends escaped, or else the flag before them. -/
def lastEscaped (d : Dialect) (escaped : Bool) (ts : List Token) : Bool :=
  ts.foldl (fun _ t => endsEscaped d t) escaped

/-- **The tokens found on a line are shown by it**, the others are found on the
lines below. If the line ends escaped, nothing comes between its last token and a
bare `\n`. -/
theorem Found.cross_line {below : List Token}
    (h : Found d u escaped trailing l text (ts ++ below))
    (hts : ∀ t ∈ ts, t.range.start.line = l.line ∧ '\n' ∉ t.text.toList ∧ t.text.toList ≠ [])
    (hbelow : ∀ t ∈ (below ++ [u]).head?, l.line < t.range.start.line) :
    ∃ ln : Line, ∃ rest, text = ln.whole ++ rest ∧ ln.Proper ∧ Shows trailing l ln.chars ts ∧
      (lastEscaped d escaped ts = true → lastStop l ts = l.past ln.chars ∧ ln.stop = .lf) ∧
      Found d u false false ((l.past ln.chars).nextLine ln.stop.width) rest below := by
  induction ts generalizing escaped trailing l text with
  | nil =>
    -- no token is left on the line, so the gap before the next one ends it
    rw [List.nil_append] at h
    cases h with
    | last hu =>
      obtain ⟨ln, gap', htext, hln, hblank, hescaped, hu'⟩ := hu.cross_line (hbelow u (by simp))
      refine ⟨ln, _, htext, hln, hblank, fun he => ?_, Found.last hu'⟩
      simp [lastStop, hescaped he]
    | @cons _ _ _ _ _ _ t _ ht hends hrest =>
      obtain ⟨ln, gap', htext, hln, hblank, hescaped, ht'⟩ := ht.cross_line (hbelow t (by simp))
      refine ⟨ln, _, htext, hln, hblank, fun he => ?_, Found.cons ht' hends hrest⟩
      simp [lastStop, hescaped he]
  | cons t ts ih =>
    -- the gap before `t` has no break, and the line goes on after `t`
    obtain ⟨hline, hone, hne⟩ := hts t List.mem_cons_self
    cases h with
    | @cons _ _ _ _ gap _ _ _ ht hends hrest =>
      obtain ⟨hgap, hblank, hstart⟩ := crossGap?_line ht.crossed hline
      have hstop : t.range.stop = l.past (gap ++ t.text.toList) := by
        rw [ht.stop, hstart, Location.past_append]
      have hsame : t.range.stop.line = l.line := by rw [hstop, Location.past_line]
      obtain ⟨ln, rest, rfl, hln, hshows, hescaped, hfound⟩ := ih hrest
        (fun x hx => hsame ▸ hts x (List.mem_cons_of_mem _ hx)) (hsame ▸ hbelow)
      have hplace : t.range.stop.past ln.chars = l.past (gap ++ t.text.toList ++ ln.chars) := by
        rw [hstop, ← Location.past_append]
      rw [hplace] at hescaped hfound
      refine ⟨⟨gap ++ t.text.toList ++ ln.chars, ln.stop⟩, rest, ?_, ?_, ?_, hescaped, hfound⟩
      · rw [ht.split]
        simp [Line.whole]
      · refine hln.append_left (by simp [hgap, hone]) fun hnil hlf => ?_
        rw [List.getLast?_append_of_ne_nil _ hne]
        exact fun hcr => hends.2 hcr (by simp [Line.whole, hnil, hlf, LineBreak.chars])
      · have hrange : t.range = ⟨l.past gap, (l.past gap).past t.text.toList⟩ := by
          rw [← hstart, ← ht.stop]
        refine ⟨gap, ln.chars, rfl, hblank, hrange, fun hcomment c hc => ?_, hshows⟩
        exact hends.1 hcomment c (Line.head?_whole_append hc rest)

end Lexer

end UnitFile
