import Mathlib.Data.List.DropRight
import UnitFile.Location
import UnitFile.Text.Symbol
/-!
# Text — lines

A text is cut into lines at its `\n`; a `\r` right before the `\n` belongs to the
break and not to the line. `cutLines` gives the lines that a break ends and what
comes after the last break. `lines_induction` walks a text line by line, and
`symbols_whole_append` says that a line is read as its characters followed by its
break. The place after some characters of a line is `Location.past`.
-/

namespace UnitFile

open Text

/-! ## Places within a line -/

namespace Location

/-- The place after some characters of a line. -/
def past (l : Location) (cs : List Char) : Location :=
  ⟨l.offset + byteLength cs, l.line, l.column + byteLength cs⟩

@[simp] theorem past_offset (l : Location) (cs : List Char) :
    (l.past cs).offset = l.offset + byteLength cs := rfl

@[simp] theorem past_line (l : Location) (cs : List Char) : (l.past cs).line = l.line := rfl

@[simp] theorem past_column (l : Location) (cs : List Char) :
    (l.past cs).column = l.column + byteLength cs := rfl

@[simp] theorem past_nil (l : Location) : l.past [] = l := rfl

theorem past_append (l : Location) (a b : List Char) : l.past (a ++ b) = (l.past a).past b := by
  simp [past, Nat.add_assoc]

theorem past_singleton (l : Location) (c : Char) : l.past [c] = l.after c := rfl

theorem past_cons (l : Location) (c : Char) (cs : List Char) :
    l.past (c :: cs) = (l.after c).past cs :=
  past_append l [c] cs

theorem after_past (l : Location) (cs : List Char) (c : Char) :
    (l.past cs).after c = l.past (cs ++ [c]) :=
  (past_append l cs [c]).symm

@[simp] theorem nextLine_offset (l : Location) (width : Nat) :
    (l.nextLine width).offset = l.offset + width := rfl

@[simp] theorem nextLine_line (l : Location) (width : Nat) :
    (l.nextLine width).line = l.line + 1 := rfl

@[simp] theorem nextLine_column (l : Location) (width : Nat) :
    (l.nextLine width).column = 0 := rfl

end Location

namespace Text

/-- Only the empty run of characters takes no byte. -/
@[simp] theorem byteLength_eq_zero {cs : List Char} : byteLength cs = 0 ↔ cs = [] := by
  cases cs with
  | nil => simp
  | cons c cs =>
    have hpos := Char.utf8Size_pos c
    simp only [byteLength_cons, reduceCtorEq, iff_false]
    omega

/-- Of two ways to split a text, the longer front goes on from the shorter one. -/
theorem exists_append_of_byteLength_le {a b a' b' : List Char} (h : a ++ b = a' ++ b')
    (hle : byteLength a' ≤ byteLength a) : ∃ x, a = a' ++ x ∧ b' = x ++ b := by
  rcases List.append_eq_append_iff.1 h with ⟨x, rfl, rfl⟩ | ⟨x, rfl, rfl⟩
  · have hnil : x = [] := byteLength_eq_zero.1 (by rw [byteLength_append] at hle; omega)
    exact ⟨[], by simp [hnil], by simp [hnil]⟩
  · exact ⟨x, rfl, rfl⟩

end Text

@[simp] theorem LineBreak.byteLength_chars (b : LineBreak) : byteLength b.chars = b.width := by
  cases b <;> rfl

/-! ## Cutting a text into lines -/

/-- A line with the break that ends it. -/
structure Line where
  chars : List Char
  stop : LineBreak
deriving DecidableEq

namespace Line

/-- The characters of a line, break included. -/
def whole (ln : Line) : List Char :=
  ln.chars ++ ln.stop.chars

/-- A line holds no `\n`, and no `\r` that belongs to its break. -/
def Proper (ln : Line) : Prop :=
  '\n' ∉ ln.chars ∧ (ln.stop = .lf → ln.chars.getLast? ≠ some '\r')

end Line

/-- The lines of a text that a break ends, and what comes after the last break. -/
def cutLines : List Char → List Line × List Char
  | [] => ([], [])
  | '\r' :: '\n' :: cs => (⟨[], .crlf⟩ :: (cutLines cs).1, (cutLines cs).2)
  | '\n' :: cs => (⟨[], .lf⟩ :: (cutLines cs).1, (cutLines cs).2)
  | c :: cs =>
    match cutLines cs with
    | ([], last) => ([], c :: last)
    | (ln :: lns, last) => (⟨c :: ln.chars, ln.stop⟩ :: lns, last)

/-- A character that begins no break joins the first line. -/
theorem cutLines_cons {c : Char} {cs : List Char} (hlf : c ≠ '\n')
    (hcrlf : c = '\r' → cs.head? ≠ some '\n') :
    cutLines (c :: cs) =
      match cutLines cs with
      | ([], last) => ([], c :: last)
      | (ln :: lns, last) => (⟨c :: ln.chars, ln.stop⟩ :: lns, last) := by
  rw [cutLines]
  · intro r hc hr
    exact hcrlf hc (by simp [hr])
  · exact hlf

/-- **A text without a `\n` is one line.** -/
theorem cutLines_of_notMem {cs : List Char} (h : '\n' ∉ cs) : cutLines cs = ([], cs) := by
  induction cs with
  | nil => rfl
  | cons c cs ih =>
    simp only [List.mem_cons, not_or] at h
    have hhead : cs.head? ≠ some '\n' := fun hc => h.2 (List.mem_of_mem_head? hc)
    rw [cutLines_cons (Ne.symm h.1) fun _ => hhead, ih h.2]

/-- What follows the first character of a line with its break is no `\n`, if that
character is a `\r`. -/
theorem Line.Proper.head_tail_ne {c : Char} {cs : List Char} {b : LineBreak}
    (h : (⟨c :: cs, b⟩ : Line).Proper) (hc : c = '\r') (rest : List Char) :
    (cs ++ b.chars ++ rest).head? ≠ some '\n' := by
  obtain ⟨hlf, hcr⟩ := h
  cases cs with
  | nil =>
    cases b with
    | lf => simp [hc] at hcr
    | crlf => simp [LineBreak.chars]
  | cons c' cs =>
    simp only [List.mem_cons, not_or] at hlf
    simpa using Ne.symm hlf.2.1

theorem Line.Proper.tail {c : Char} {cs : List Char} {b : LineBreak}
    (h : (⟨c :: cs, b⟩ : Line).Proper) : (⟨cs, b⟩ : Line).Proper := by
  refine ⟨fun hmem => h.1 (List.mem_cons_of_mem _ hmem), fun hb hlast => h.2 hb ?_⟩
  rw [List.getLast?_cons, hlast]
  rfl

/-- The first character of a line is the first one of its text. -/
theorem Line.head?_whole_append {ln : Line} {c : Char} (h : c ∈ ln.chars.head?)
    (rest : List Char) : c ∈ (ln.whole ++ rest).head? := by
  rw [Line.whole, List.append_assoc, List.head?_append, Option.mem_def.1 h]
  rfl

/-- A line stays proper with more characters in front. -/
theorem Line.Proper.append_left {ln : Line} {cs : List Char} (h : ln.Proper) (hcs : '\n' ∉ cs)
    (hcr : ln.chars = [] → ln.stop = .lf → cs.getLast? ≠ some '\r') :
    (⟨cs ++ ln.chars, ln.stop⟩ : Line).Proper := by
  refine ⟨by simp [hcs, h.1], fun hlf => ?_⟩
  by_cases hnil : ln.chars = []
  · simpa [hnil] using hcr hnil hlf
  · rw [List.getLast?_append_of_ne_nil _ hnil]
    exact h.2 hlf

/-- **The first line of a text is cut off.** -/
theorem cutLines_whole_append {ln : Line} (h : ln.Proper) (rest : List Char) :
    cutLines (ln.whole ++ rest) = (ln :: (cutLines rest).1, (cutLines rest).2) := by
  obtain ⟨cs, b⟩ := ln
  induction cs with
  | nil => cases b <;> rfl
  | cons c cs ih =>
    have hc : c ≠ '\n' := fun hc => h.1 (by simp [hc])
    have htail := ih h.tail
    simp only [Line.whole] at htail
    simp only [Line.whole, List.cons_append]
    rw [cutLines_cons hc fun hcr => h.head_tail_ne hcr rest, htail]

/-- A text with a `\n` has a first line that a break ends. -/
theorem exists_line {cs : List Char} (h : '\n' ∈ cs) :
    ∃ ln : Line, ∃ rest, cs = ln.whole ++ rest ∧ ln.Proper := by
  obtain ⟨a, rest, rfl, ha⟩ := List.eq_append_cons_of_mem h
  by_cases hr : a.getLast? = some '\r'
  · -- the `\r` in front of the `\n` goes to the break
    obtain ⟨a', rfl⟩ := List.getLast?_eq_some_iff.1 hr
    refine ⟨⟨a', .crlf⟩, rest, ?_, fun hmem => ha (List.mem_append_left _ hmem), by simp⟩
    simp [Line.whole, LineBreak.chars]
  · exact ⟨⟨a, .lf⟩, rest, by simp [Line.whole, LineBreak.chars], ha, fun _ => hr⟩

/-- **A text is read line by line.** It is a last line that nothing ends, or a line
with its break and a rest. -/
theorem lines_induction {P : List Char → Prop} (last : ∀ cs, '\n' ∉ cs → P cs)
    (line : ∀ ln : Line, ln.Proper → ∀ rest, P rest → P (ln.whole ++ rest)) :
    ∀ cs, P cs := by
  intro cs
  -- on the length, since the rest of a text is no part of it that recursion would reach
  induction hn : cs.length using Nat.strong_induction_on generalizing cs with
  | _ n ih =>
    by_cases hmem : '\n' ∈ cs
    · obtain ⟨ln, rest, rfl, hln⟩ := exists_line hmem
      have hlt : rest.length < n := by
        rw [← hn, Line.whole, List.length_append, List.length_append]
        cases ln.stop <;> simp only [LineBreak.chars, List.length_cons] <;> omega
      exact line ln hln rest (ih rest.length hlt rest rfl)
    · exact last cs hmem

/-! ## Lines as symbols -/

/-- A line is read as its characters. -/
theorem symbols_of_notMem {cs : List Char} (h : '\n' ∉ cs) : symbols cs = cs.map .char := by
  induction cs with
  | nil => rfl
  | cons c cs ih =>
    simp only [List.mem_cons, not_or] at h
    rw [symbols, ih h.2, List.map_cons]
    · rintro r - rfl
      exact h.2 (by simp)
    · exact Ne.symm h.1

/-- **A line is read as its characters and its break.** -/
theorem symbols_whole_append {ln : Line} (h : ln.Proper) (rest : List Char) :
    symbols (ln.whole ++ rest) = ln.chars.map .char ++ .lineBreak ln.stop :: symbols rest := by
  have hcut : ln.chars.getLast? = some '\r' → (ln.stop.chars ++ rest).head? ≠ some '\n' := by
    intro hlast
    cases hstop : ln.stop with
    | lf => exact absurd hlast (h.2 hstop)
    | crlf => simp [LineBreak.chars]
  rw [Line.whole, List.append_assoc, symbols_append _ _ hcut, symbols_of_notMem h.1]
  cases ln.stop <;> rfl

end UnitFile
