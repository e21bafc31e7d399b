import Mathlib.Data.List.DropRight
import Mathlib.Data.Prod.Lex
import UnitFile.Proofs.Places
/-!
# Offsets, lines and columns

The line index of a text turns offsets into lines with columns and back. An offset
counts bytes, so it may also fall inside a character, and the two questions are
answered there as well.

Most of what can be said needs only that the starts of the lines begin at zero, increase
and stay within the text (`LineIndex.WellFormed`). Then both questions come down to one
relation, `LineIndex.Holds`: a line starts at the right distance before the offset, and
the next one behind it. So each undoes the other, and offsets are in the order of lines
and columns. For the index of a text the lines are those that the `\n` bytes leave
(`holds_of_split`, `exists_holds_iff`).
-/

namespace UnitFile

open Text

/-! ## Texts as bytes -/

namespace Text

/-- The byte of a `\n`. -/
def newline : UInt8 := 10

/-- The bytes of some characters. -/
def bytes (cs : List Char) : List UInt8 :=
  cs.flatMap String.utf8EncodeChar

/-- They are those of the text. -/
theorem bytes_toList (text : String) : bytes text.toList = text.toUTF8.data.toList := by
  rw [String.toUTF8_eq_toByteArray, ← String.utf8Encode_toList, List.utf8Encode,
    List.toList_data_toByteArray, bytes]

theorem bytes_cons (c : Char) (cs : List Char) :
    bytes (c :: cs) = String.utf8EncodeChar c ++ bytes cs := rfl

@[simp] theorem length_bytes (cs : List Char) : (bytes cs).length = byteLength cs := by
  induction cs with
  | nil => rfl
  | cons c cs ih =>
    rw [bytes_cons, List.length_append, ih, String.length_utf8EncodeChar, byteLength_cons]

/-- A byte of a character is its code, unless both lie beyond the ASCII range. -/
theorem toNat_of_mem_utf8EncodeChar {x : UInt8} {c : Char} (h : x ∈ String.utf8EncodeChar c) :
    x.toNat = c.toNat ∨ 128 ≤ x.toNat ∧ 128 ≤ c.toNat := by
  have hc : c.toNat = c.val.toNat := rfl
  dsimp only [String.utf8EncodeChar] at h
  -- by the number of bytes
  split_ifs at h <;> simp only [List.mem_cons, List.not_mem_nil, or_false] at h
  · subst h
    rw [UInt8.toNat_ofNat']
    omega
  · rcases h with rfl | rfl <;> rw [UInt8.toNat_ofNat'] <;> omega
  · rcases h with rfl | rfl | rfl <;> rw [UInt8.toNat_ofNat'] <;> omega
  · rcases h with rfl | rfl | rfl | rfl <;> rw [UInt8.toNat_ofNat'] <;> omega

/-- So the byte of a `\n` is found in no other character. -/
theorem newline_mem_utf8EncodeChar {c : Char} :
    newline ∈ String.utf8EncodeChar c ↔ c = '\n' := by
  constructor
  · intro h
    have hbyte := toNat_of_mem_utf8EncodeChar h
    have hnewline : newline.toNat = '\n'.toNat := rfl
    have hsmall : '\n'.toNat < 128 := by decide
    exact Char.toNat_inj.1 (by omega)
  · rintro rfl
    decide

end Text

namespace LineIndex

variable {ix : LineIndex} {line line' column column' offset offset' : Nat}

/-! ## Any increasing line starts -/

/-- The first line starts the text, and each starts behind the one above it, within the
text. -/
structure WellFormed (ix : LineIndex) : Prop where
  first : ix.starts[0]? = some 0
  increasing : ix.starts.Pairwise (· < ·)
  bounded : ∀ start ∈ ix.starts, start ≤ ix.size

/-- The offset is at the given column of the given line. -/
def Holds (ix : LineIndex) (line column offset : Nat) : Prop :=
  ∃ start, ix.starts[line]? = some start ∧ start + column = offset ∧ offset ≤ ix.size ∧
    ∀ next ∈ ix.starts[line + 1]?, offset < next

theorem WellFormed.lt_of_lt {start start' : Nat} (h : ix.WellFormed)
    (hs : ix.starts[line]? = some start) (hs' : ix.starts[line']? = some start')
    (hlt : line < line') : start < start' := by
  obtain ⟨hline, rfl⟩ := List.getElem?_eq_some_iff.1 hs
  obtain ⟨hline', rfl⟩ := List.getElem?_eq_some_iff.1 hs'
  exact List.pairwise_iff_getElem.1 h.increasing line line' hline hline' hlt

/-- A line starts at its column zero. -/
theorem WellFormed.holds_start {start : Nat} (h : ix.WellFormed)
    (hs : ix.starts[line]? = some start) : ix.Holds line 0 start :=
  ⟨start, hs, rfl, h.bounded start (List.mem_of_getElem? hs),
    fun _ hnext => h.lt_of_lt hs hnext (Nat.lt_succ_self line)⟩

/-- All of a line comes before all of a line below it. -/
theorem Holds.offset_lt (ho : ix.Holds line column offset) (h : ix.WellFormed)
    (ho' : ix.Holds line' column' offset') (hlt : line < line') : offset < offset' := by
  obtain ⟨start, -, -, -, hnext⟩ := ho
  obtain ⟨start', hs', heq', -, -⟩ := ho'
  have hbound : line + 1 < ix.starts.length :=
    Nat.lt_of_le_of_lt hlt (List.getElem?_eq_some_iff.1 hs').1
  have hget : ix.starts[line + 1]? = some ix.starts[line + 1] := List.getElem?_eq_getElem hbound
  have hbefore : offset < ix.starts[line + 1] := hnext _ hget
  rcases Nat.lt_or_eq_of_le (Nat.succ_le_of_lt hlt) with hlt' | rfl
  · have hstart := h.lt_of_lt hget hs' hlt'
    omega
  · have hstart : ix.starts[line + 1] = start' := Option.some.inj (hget.symm.trans hs')
    omega

/-- So an offset has one line and one column only. -/
theorem Holds.unique (ho : ix.Holds line column offset) (h : ix.WellFormed)
    (ho' : ix.Holds line' column' offset) : line = line' ∧ column = column' := by
  have hline : line = line' := by
    rcases Nat.lt_trichotomy line line' with hlt | heq | hgt
    · exact absurd (ho.offset_lt h ho' hlt) (Nat.lt_irrefl _)
    · exact heq
    · exact absurd (ho'.offset_lt h ho hgt) (Nat.lt_irrefl _)
  subst hline
  obtain ⟨start, hs, heq, -, -⟩ := ho
  obtain ⟨start', hs', heq', -, -⟩ := ho'
  have hstart : start = start' := Option.some.inj (hs.symm.trans hs')
  exact ⟨rfl, by omega⟩

/-- **Offsets are ordered as lines, and within a line as columns.** -/
theorem Holds.lt_iff (ho : ix.Holds line column offset) (h : ix.WellFormed)
    (ho' : ix.Holds line' column' offset') :
    offset < offset' ↔ toLex (line, column) < toLex (line', column') := by
  rw [Prod.Lex.toLex_lt_toLex]
  rcases Nat.lt_trichotomy line line' with hlt | rfl | hgt
  · have hoffset := ho.offset_lt h ho' hlt
    simp [hlt, hoffset]
  · obtain ⟨start, hs, heq, -, -⟩ := ho
    obtain ⟨start', hs', heq', -, -⟩ := ho'
    have hstart : start = start' := Option.some.inj (hs.symm.trans hs')
    simp only [Nat.lt_irrefl, true_and, false_or]
    omega
  · have hoffset := ho'.offset_lt h ho hgt
    simp only [Nat.lt_asymm hgt, Nat.ne_of_gt hgt, false_and, or_self, iff_false]
    omega

/-- Past the end there is no location. -/
theorem locate_of_lt (hlt : ix.size < offset) :
    ix.locate offset = .error (.offsetOutOfBounds offset ix.size) := by
  rw [locate, if_pos hlt]

/-- Any other offset has one, on the last line that starts at or before it. -/
theorem WellFormed.exists_locate (h : ix.WellFormed) (hle : offset ≤ ix.size) :
    ∃ line column, ix.locate offset = .ok ⟨offset, line, column⟩ ∧ ix.Holds line column offset := by
  have hsplit := List.takeWhile_append_dropWhile (p := (· ≤ offset)) (l := ix.starts)
  have hbehind := List.head?_dropWhile_not (· ≤ offset) ix.starts
  have hbegun : ix.starts.takeWhile (· ≤ offset) ≠ [] := by
    obtain ⟨starts, hstarts⟩ := List.head?_eq_some_iff.1 (List.head?_eq_getElem? ▸ h.first)
    simp [hstarts]
  obtain ⟨above, start, habove⟩ := List.eq_nil_or_concat _ |>.resolve_left hbegun
  rw [List.concat_eq_append] at habove
  have hstart : start ≤ offset := by
    have hmem : start ∈ ix.starts.takeWhile (· ≤ offset) := by simp [habove]
    simpa using List.mem_takeWhile_imp hmem
  rw [habove, List.append_assoc, List.singleton_append] at hsplit
  refine ⟨above.length, offset - start, ?_, start, ?_, ?_, hle, ?_⟩
  · rw [locate, if_neg (Nat.not_lt.2 hle)]
    simp [habove]
  · rw [← hsplit]
    simp
  · omega
  · intro next hnext
    rw [← hsplit, List.getElem?_append_right (by omega)] at hnext
    simp only [Nat.add_sub_cancel_left, List.getElem?_cons_succ, ← List.head?_eq_getElem?,
      Option.mem_def] at hnext
    rw [hnext] at hbehind
    simpa using hbehind

/-- **An offset is located where it is held.** -/
theorem locate_eq_ok_iff (h : ix.WellFormed) {l : Location} :
    ix.locate offset = .ok l ↔ l.offset = offset ∧ ix.Holds l.line l.column offset := by
  constructor
  · intro hl
    have hle : offset ≤ ix.size := by
      by_contra hlt
      simp [locate_of_lt (Nat.lt_of_not_le hlt)] at hl
    obtain ⟨line, column, hlocate, hholds⟩ := h.exists_locate hle
    obtain rfl := Except.ok.inj (hlocate.symm.trans hl)
    exact ⟨rfl, hholds⟩
  · rintro ⟨rfl, hl⟩
    obtain ⟨start, -, -, hle, -⟩ := id hl
    obtain ⟨line, column, hlocate, hholds⟩ := h.exists_locate hle
    obtain ⟨rfl, rfl⟩ := hholds.unique h hl
    exact hlocate

/-- A line stops before the next one starts, or where the text ends. -/
theorem WellFormed.le_lineStop_iff {start : Nat} (h : ix.WellFormed)
    (hs : ix.starts[line]? = some start) :
    offset ≤ ix.lineStop line ↔
      offset ≤ ix.size ∧ ∀ next ∈ ix.starts[line + 1]?, offset < next := by
  unfold lineStop
  cases hnext : ix.starts[line + 1]? with
  | none => simp
  | some next =>
    have hlt : start < next := h.lt_of_lt hs hnext (Nat.lt_succ_self line)
    have hsize : next ≤ ix.size := h.bounded next (List.mem_of_getElem? hnext)
    simp only [Option.mem_some_iff, forall_eq']
    omega

/-- **A line and a column name the offset that they hold.** -/
theorem offsetAt_eq_ok_iff (h : ix.WellFormed) :
    ix.offsetAt line column = .ok offset ↔ ix.Holds line column offset := by
  unfold offsetAt lineStart? Holds
  cases hs : ix.starts[line]? with
  | none => simp
  | some start =>
    have hstop : start ≤ ix.lineStop line := by
      obtain ⟨-, -, -, hbehind⟩ := h.holds_start hs
      exact (h.le_lineStop_iff hs).2 hbehind
    simp only [Option.some.injEq, exists_eq_left', ← h.le_lineStop_iff hs]
    split_ifs with hcolumn
    · simp only [false_iff]
      omega
    · simp only [Except.ok.injEq]
      omega

/-- **The two questions undo each other.** -/
theorem offsetAt_eq_ok_iff_locate (h : ix.WellFormed) :
    ix.offsetAt line column = .ok offset ↔ ix.locate offset = .ok ⟨offset, line, column⟩ := by
  rw [offsetAt_eq_ok_iff h, locate_eq_ok_iff h]
  exact (and_iff_right rfl).symm

/-! ## The line starts of a text -/

/-- Lines start behind the `\n` bytes. -/
theorem startsAfter_eq_idxsOf (offset : Nat) (cs : List Char) :
    startsAfter offset cs = (bytes cs).idxsOf newline (offset + 1) := by
  induction cs generalizing offset with
  | nil => rfl
  | cons c cs ih =>
    rw [startsAfter, bytes_cons, List.idxsOf_append, String.length_utf8EncodeChar]
    split_ifs with hc
    · subst hc
      rw [ih]
      rfl
    · have hnone : (String.utf8EncodeChar c).idxsOf newline (offset + 1) = [] := by
        rw [List.idxsOf_eq_nil_iff]
        intro x hx
        simpa using fun heq : x = newline => hc (newline_mem_utf8EncodeChar.1 (heq ▸ hx))
      rw [ih, hnone, List.nil_append, Nat.add_right_comm]

theorem starts_ofChars (cs : List Char) :
    (ofChars cs).starts = 0 :: (bytes cs).idxsOf newline 1 := by
  rw [ofChars, startsAfter_eq_idxsOf]

theorem wellFormed_ofChars (cs : List Char) : (ofChars cs).WellFormed where
  first := rfl
  increasing := by
    rw [starts_ofChars, List.pairwise_cons]
    exact ⟨fun start hstart => List.ge_of_mem_idxsOf start hstart, List.pairwise_idxsOf⟩
  bounded := by
    intro start hstart
    rcases List.mem_cons.1 hstart with rfl | hstart
    · exact Nat.zero_le _
    · have hbounds := startsAfter_bounds hstart
      rw [Nat.zero_add] at hbounds
      exact hbounds.2

/-- The last line of some bytes starts behind their last `\n`. -/
theorem getElem?_starts (bs : List UInt8) :
    (0 :: bs.idxsOf newline 1)[bs.count newline]? =
      some (bs.rdropWhile (· != newline)).length := by
  -- from the back, where a `\n` adds a line start and no other byte does
  induction bs using List.reverseRecOn with
  | nil => rfl
  | append_singleton bs x ih =>
    rw [List.idxsOf_append, List.count_append]
    by_cases hx : x = newline
    · subst hx
      simp [List.rdropWhile_concat_neg, Nat.add_comm]
    · have hne : (x != newline) = true := by simpa using hx
      rw [List.rdropWhile_concat_pos (· != newline) _ _ hne, ← ih]
      simp [hx]

/-- **The line of an offset is the number of `\n` bytes before it, and the column is the
number of bytes since the last one.** -/
theorem holds_of_split {cs : List Char} {a b : List UInt8} (h : bytes cs = a ++ b) :
    (ofChars cs).Holds (a.count newline) (a.rtakeWhile (· != newline)).length a.length := by
  have hlength : a.length = (a.rdropWhile (· != newline)).length +
      (a.rtakeWhile (· != newline)).length := by
    rw [← List.length_append, List.rdropWhile_append_rtakeWhile]
  have hcount : a.count newline < (0 :: a.idxsOf newline 1).length := by simp
  have hstarts : (ofChars cs).starts =
      (0 :: a.idxsOf newline 1) ++ b.idxsOf newline (1 + a.length) := by
    rw [starts_ofChars, h, List.idxsOf_append, List.cons_append]
  refine ⟨(a.rdropWhile (· != newline)).length, ?_, hlength.symm, ?_, ?_⟩
  · rw [hstarts, List.getElem?_append_left hcount, getElem?_starts]
  · show a.length ≤ byteLength cs
    rw [← length_bytes, h, List.length_append]
    omega
  · intro next hnext
    rw [hstarts, List.getElem?_append_right (by simp)] at hnext
    have hle := List.ge_of_mem_idxsOf next (List.mem_of_getElem? hnext)
    omega

/-! ## The lines of a text -/

theorem length_splitOn (bs : List UInt8) :
    (bs.splitOn newline).length = bs.count newline + 1 := by
  induction bs with
  | nil => rfl
  | cons x bs ih =>
    rw [List.splitOn_cons_eq_if_modifyHead, List.count_cons]
    split_ifs
    · rw [List.length_cons, ih]
    · rw [List.length_modifyHead, ih]

theorem lineCount_ofChars (cs : List Char) :
    (ofChars cs).lineCount = ((bytes cs).splitOn newline).length := by
  rw [length_splitOn, lineCount, starts_ofChars, List.length_cons, List.length_idxsOf]

theorem getElem?_splitOn_zero (bs : List UInt8) :
    (bs.splitOn newline)[0]? = some (bs.takeWhile (· != newline)) := by
  induction bs with
  | nil => rfl
  | cons x bs ih =>
    rw [List.splitOn_cons_eq_if_modifyHead]
    by_cases hx : x = newline
    · simp [hx]
    · simp [hx, ih]

/-- The line around a cut. -/
theorem getElem?_splitOn_append (a b : List UInt8) :
    ((a ++ b).splitOn newline)[a.count newline]? =
      some (a.rtakeWhile (· != newline) ++ b.takeWhile (· != newline)) := by
  -- from the end of `a`, where a `\n` begins the line and any other byte joins it
  induction a using List.reverseRecOn generalizing b with
  | nil => exact getElem?_splitOn_zero b
  | append_singleton a x ih =>
    rw [List.append_assoc, List.singleton_append, List.count_append]
    by_cases hx : x = newline
    · subst hx
      rw [List.splitOn_append_cons_self, List.getElem?_append_right (by simp [length_splitOn]),
        length_splitOn]
      simp [getElem?_splitOn_zero, List.rtakeWhile_concat_neg]
    · have hne : (x != newline) = true := by simpa using hx
      rw [List.rtakeWhile_concat_pos (· != newline) _ _ hne, List.append_assoc,
        List.singleton_append, ← List.takeWhile_cons_of_pos (p := (· != newline)) hne, ← ih]
      simp [hx]

/-- No `\n` is among the first bytes of a line. -/
theorem newline_notMem_take {bs : List UInt8} {n : Nat}
    (h : n ≤ (bs.takeWhile (· != newline)).length) : newline ∉ bs.take n := by
  intro hmem
  rw [← List.takeWhile_append_dropWhile (p := (· != newline)) (l := bs),
    List.take_append_of_le_length h] at hmem
  simpa using List.mem_takeWhile_imp (List.mem_of_mem_take hmem)

/-- **The line and the column of an offset, counted in bytes.** -/
theorem holds_iff {cs : List Char} :
    (ofChars cs).Holds line column offset ↔
      offset ≤ (bytes cs).length ∧ ((bytes cs).take offset).count newline = line ∧
        (((bytes cs).take offset).rtakeWhile (· != newline)).length = column := by
  have hsplit : offset ≤ (bytes cs).length → (ofChars cs).Holds
      (((bytes cs).take offset).count newline)
      (((bytes cs).take offset).rtakeWhile (· != newline)).length offset := by
    intro hle
    have hholds := holds_of_split (List.take_append_drop offset (bytes cs)).symm
    rwa [List.length_take_of_le hle] at hholds
  constructor
  · intro ho
    have hle : offset ≤ (bytes cs).length := by
      obtain ⟨-, -, -, hle, -⟩ := id ho
      rwa [length_bytes]
    exact ⟨hle, (hsplit hle).unique (wellFormed_ofChars cs) ho⟩
  · rintro ⟨hle, rfl, rfl⟩
    exact hsplit hle

/-- **The columns of a line go up to its number of bytes.** -/
theorem exists_holds_iff {cs : List Char} :
    (∃ offset, (ofChars cs).Holds line column offset) ↔
      ∃ ln ∈ ((bytes cs).splitOn newline)[line]?, column ≤ ln.length := by
  have hix := wellFormed_ofChars cs
  constructor
  · rintro ⟨offset, ho⟩
    obtain ⟨-, rfl, rfl⟩ := holds_iff.1 ho
    have hline := getElem?_splitOn_append ((bytes cs).take offset) ((bytes cs).drop offset)
    rw [List.take_append_drop] at hline
    exact ⟨_, hline, by simp⟩
  · rintro ⟨ln, hln, hcolumn⟩
    have hlt : line < (ofChars cs).lineCount := by
      rw [lineCount_ofChars]
      exact (List.getElem?_eq_some_iff.1 hln).1
    obtain ⟨start, hstart⟩ : ∃ start, (ofChars cs).starts[line]? = some start :=
      ⟨_, List.getElem?_eq_getElem hlt⟩
    obtain ⟨hsize, hcount, hnone⟩ := holds_iff.1 (hix.holds_start hstart)
    -- the line is what follows its start up to a `\n`
    have hrest : ln = ((bytes cs).drop start).takeWhile (· != newline) := by
      have hline := getElem?_splitOn_append ((bytes cs).take start) ((bytes cs).drop start)
      rw [List.take_append_drop, hcount, List.length_eq_zero_iff.1 hnone, List.nil_append] at hline
      exact Option.some.inj (hln.symm.trans hline)
    refine ⟨start + column, start, hstart, rfl, ?_, fun next hnext => ?_⟩
    · show start + column ≤ byteLength cs
      have hlength := (List.takeWhile_sublist (l := (bytes cs).drop start) (· != newline)).length_le
      rw [← hrest, List.length_drop] at hlength
      rw [← length_bytes]
      omega
    · -- else the next line would start within this one
      by_contra hle
      have hlt' := hix.lt_of_lt hstart hnext (Nat.lt_succ_self line)
      obtain ⟨-, hcount', -⟩ := holds_iff.1 (hix.holds_start hnext)
      have hnone' : newline ∉ ((bytes cs).drop start).take (next - start) :=
        newline_notMem_take (by rw [← hrest]; omega)
      rw [← Nat.add_sub_cancel' hlt'.le, List.take_add, List.count_append, hcount,
        List.count_eq_zero_of_not_mem hnone'] at hcount'
      omega

end LineIndex

/-! ## Whole texts -/

/-- **Offsets are lines with columns, in the same order.** Exactly the offsets up to the end
of a text have a location; its line is the number of `\n` bytes before the offset, and its
column is the number of bytes since the last of them. There are as many lines as `\n` bytes
leave, and exactly the columns up to the length of a line have an offset. The two
questions undo each other, and offsets are ordered as lines, then as columns. -/
theorem locations_biject (text : String) :
    let ix := LineIndex.ofChars text.toList
    let bs := text.toUTF8.data.toList
    (∀ offset, ix.locate offset =
      if offset ≤ bs.length then
        .ok ⟨offset, (bs.take offset).count newline,
          ((bs.take offset).rtakeWhile (· != newline)).length⟩
      else .error (.offsetOutOfBounds offset bs.length)) ∧
    ix.lineCount = (bs.splitOn newline).length ∧
    (∀ line column, (∃ offset, ix.offsetAt line column = .ok offset) ↔
      ∃ ln ∈ (bs.splitOn newline)[line]?, column ≤ ln.length) ∧
    (∀ line column offset, ix.offsetAt line column = .ok offset ↔
      ix.locate offset = .ok ⟨offset, line, column⟩) ∧
    (∀ offset offset' l l', ix.locate offset = .ok l → ix.locate offset' = .ok l' →
      (offset < offset' ↔ toLex (l.line, l.column) < toLex (l'.line, l'.column))) := by
  have hix := LineIndex.wellFormed_ofChars text.toList
  rw [← bytes_toList]
  refine ⟨fun offset => ?_, ?_, fun line column => ?_, fun line column offset => ?_, ?_⟩
  · split_ifs with hle
    · exact (LineIndex.locate_eq_ok_iff hix).2 ⟨rfl, LineIndex.holds_iff.2 ⟨hle, rfl, rfl⟩⟩
    · rw [length_bytes] at hle ⊢
      exact LineIndex.locate_of_lt (Nat.lt_of_not_le hle)
  · exact LineIndex.lineCount_ofChars _
  · simp only [LineIndex.offsetAt_eq_ok_iff hix]
    exact LineIndex.exists_holds_iff
  · exact LineIndex.offsetAt_eq_ok_iff_locate hix
  · intro offset offset' l l' hl hl'
    rw [LineIndex.locate_eq_ok_iff hix] at hl hl'
    exact hl.2.lt_iff hix hl'.2

/-- The second byte of a character has a place too, and a line stops before its `\n`. -/
example :
    (LineIndex.ofChars "é\n\nb".toList).locate 1 = .ok ⟨1, 0, 1⟩ ∧
    (LineIndex.ofChars "é\n\nb".toList).offsetAt 0 2 = .ok 2 ∧
    (LineIndex.ofChars "é\n\nb".toList).offsetAt 1 1 = .error (.columnOutOfBounds 1 1 0) := by
  decide

end UnitFile
