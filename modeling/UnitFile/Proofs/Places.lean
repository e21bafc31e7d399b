import Mathlib.Data.List.Induction
import UnitFile.LineIndex
import UnitFile.Proofs.Lines
/-!
# Places over several lines

`Location.across` counts a text through, character by character, and begins a new
line at each `\n`. Within a line it is `Location.past`, and over a break it is
`Location.nextLine`, so it is what the lexer counts.

The line index counts in another way, from the starts of all lines.
`LineIndex.locate_append` says that the two agree at every cut of a text.
-/

namespace UnitFile

open Text

namespace Location

/-- The place after some characters, line breaks among them. -/
def across (l : Location) (cs : List Char) : Location :=
  cs.foldl (fun l c => if c = '\n' then l.nextLine 1 else l.after c) l

theorem across_append (l : Location) (a b : List Char) : l.across (a ++ b) = (l.across a).across b :=
  List.foldl_append ..

theorem across_newline (l : Location) (cs : List Char) :
    l.across (cs ++ ['\n']) = (l.across cs).nextLine 1 :=
  across_append l cs ['\n']

theorem across_concat {c : Char} (hc : c ≠ '\n') (l : Location) (cs : List Char) :
    l.across (cs ++ [c]) = (l.across cs).after c := by
  rw [across_append]
  simp [across, hc]

/-- Within a line every character leads on by its bytes. -/
theorem across_of_notMem {cs : List Char} (h : '\n' ∉ cs) (l : Location) : l.across cs = l.past cs := by
  induction cs generalizing l with
  | nil => rfl
  | cons c cs ih =>
    simp only [List.mem_cons, not_or] at h
    have hc : ¬ c = '\n' := Ne.symm h.1
    rw [past_cons, ← ih h.2, across, List.foldl_cons, if_neg hc]
    rfl

theorem across_offset (l : Location) (cs : List Char) :
    (l.across cs).offset = l.offset + byteLength cs := by
  induction cs using List.reverseRecOn with
  | nil => rfl
  | append_singleton cs c ih =>
    rw [byteLength_append, ← Nat.add_assoc, ← ih]
    by_cases hc : c = '\n'
    · subst hc
      rw [across_newline]
      rfl
    · rw [across_concat hc]
      rfl

/-- Every `\n` leads to the line below. -/
theorem across_line (l : Location) (cs : List Char) :
    (l.across cs).line = l.line + cs.count '\n' := by
  induction cs using List.reverseRecOn with
  | nil => rfl
  | append_singleton cs c ih =>
    rw [List.count_append, ← Nat.add_assoc, ← ih]
    by_cases hc : c = '\n'
    · subst hc
      rw [across_newline]
      rfl
    · rw [across_concat hc, List.count_singleton]
      simp [after, hc]

/-- A break leads to the start of the next line, whether it is written with a `\r`
or without. -/
theorem across_lineBreak (l : Location) (b : LineBreak) : l.across b.chars = l.nextLine b.width := by
  cases b <;> rfl

/-- A line with its break leads from the start of the line to that of the next. -/
theorem across_whole {ln : Line} (h : ln.Proper) (l : Location) :
    l.across ln.whole = (l.past ln.chars).nextLine ln.stop.width := by
  rw [Line.whole, across_append, across_of_notMem h.1, across_lineBreak]

end Location

namespace LineIndex

/-- Lines that start in the first part of a text, then those in the second. -/
theorem startsAfter_append (offset : Nat) (a b : List Char) :
    startsAfter offset (a ++ b) =
      startsAfter offset a ++ startsAfter (offset + byteLength a) b := by
  induction a generalizing offset with
  | nil => rfl
  | cons c a ih =>
    rw [List.cons_append, startsAfter, startsAfter, byteLength_cons, ih, ih, ← Nat.add_assoc]
    split
    · rename_i hc
      subst hc
      rfl
    · rfl

/-- Lines start behind a `\n`, and no later than the text ends. -/
theorem startsAfter_bounds {offset start : Nat} {cs : List Char}
    (h : start ∈ startsAfter offset cs) : offset < start ∧ start ≤ offset + byteLength cs := by
  induction cs generalizing offset with
  | nil => simp [startsAfter] at h
  | cons c cs ih =>
    have hpos := Char.utf8Size_pos c
    rw [startsAfter] at h
    rw [byteLength_cons]
    split at h
    · rcases List.mem_cons.1 h with rfl | h
      · omega
      · have hbounds := ih h
        omega
    · have hbounds := ih h
      omega

/-- The start of the last line, for a text that begins at the start of one. -/
def lastStart (cs : List Char) : Nat :=
  (startsAfter 0 cs).getLast?.getD 0

theorem lastStart_le (cs : List Char) : lastStart cs ≤ byteLength cs := by
  unfold lastStart
  cases hlast : (startsAfter 0 cs).getLast? with
  | none => exact Nat.zero_le _
  | some start =>
    have hbounds := startsAfter_bounds (List.mem_of_getLast? hlast)
    simpa using hbounds.2

/-- **Counting through a text gives the number of line starts and the distance to the
last one.** -/
theorem across_eq (cs : List Char) :
    ({} : Location).across cs =
      ⟨byteLength cs, (startsAfter 0 cs).length, byteLength cs - lastStart cs⟩ := by
  -- from the back, where a `\n` adds a line start and no other character does
  induction cs using List.reverseRecOn with
  | nil => rfl
  | append_singleton cs c ih =>
    have hle := lastStart_le cs
    by_cases hc : c = '\n'
    · subst hc
      have hstarts : startsAfter 0 (cs ++ ['\n']) = startsAfter 0 cs ++ [byteLength cs + 1] := by
        rw [startsAfter_append, Nat.zero_add]
        rfl
      have hlast : lastStart (cs ++ ['\n']) = byteLength cs + 1 := by
        simp [lastStart, hstarts]
      have hlen : byteLength (cs ++ ['\n']) = byteLength cs + 1 := byteLength_append cs ['\n']
      rw [Location.across_newline, ih, hlast, hstarts, hlen]
      simp [Location.nextLine]
    · have hstarts : startsAfter 0 (cs ++ [c]) = startsAfter 0 cs := by
        rw [startsAfter_append, startsAfter, if_neg hc, startsAfter, List.append_nil]
      have hlast : lastStart (cs ++ [c]) = lastStart cs := by
        rw [lastStart, hstarts, lastStart]
      rw [Location.across_concat hc, ih, hlast, hstarts, byteLength_append, byteLength_cons,
        byteLength_nil, Location.after, Nat.add_zero, Nat.sub_add_comm hle]

/-- **The line index agrees with counting**, at every cut of a text. -/
theorem locate_append (a b : List Char) :
    (ofChars (a ++ b)).locate (byteLength a) = .ok (({} : Location).across a) := by
  have hbegun : (ofChars (a ++ b)).starts.takeWhile (· ≤ byteLength a) = 0 :: startsAfter 0 a := by
    have hbefore : ∀ start ∈ 0 :: startsAfter 0 a, decide (start ≤ byteLength a) = true := by
      intro start hstart
      rcases List.mem_cons.1 hstart with rfl | hstart
      · simp
      · simpa using (startsAfter_bounds hstart).2
    have hbehind : (startsAfter (byteLength a) b).takeWhile (· ≤ byteLength a) = [] := by
      cases hb : startsAfter (byteLength a) b with
      | nil => rfl
      | cons start starts =>
        have hlt := (startsAfter_bounds (hb ▸ List.mem_cons_self)).1
        rw [List.takeWhile_cons_of_neg (by simpa using hlt)]
    rw [ofChars, startsAfter_append, Nat.zero_add, ← List.cons_append,
      List.takeWhile_append_of_pos hbefore, hbehind, List.append_nil]
  have hsize : ¬ (ofChars (a ++ b)).size < byteLength a := by
    simp only [ofChars, byteLength_append]
    omega
  have hlast : (0 :: startsAfter 0 a).getLast?.getD 0 = lastStart a := by
    simp [lastStart, List.getLast?_cons]
  rw [locate, if_neg hsize]
  simp only [hbegun, hlast, List.length_cons, Nat.add_sub_cancel]
  rw [across_eq]

end LineIndex

end UnitFile
