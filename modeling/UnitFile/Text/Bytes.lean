/-!
# Text — characters by their byte offsets

Texts are walked as lists of characters and addressed by UTF-8 byte offsets.
`byteLength` measures a run of characters, `splitAtByte?` cuts it at an offset
that falls between two characters, and `slice?` takes the part between two such
offsets. `splitAtByte?_eq_some` says that the cut is exactly the split of the
text with that many bytes in front, so no other reading of an offset is left.
-/

namespace UnitFile

namespace Text

/-- The number of bytes a run of characters takes in UTF-8. -/
def byteLength : List Char → Nat
  | [] => 0
  | c :: cs => c.utf8Size + byteLength cs

/-- Cuts a text at a byte offset. There is no cut past the end or inside a
character. -/
def splitAtByte? : Nat → List Char → Option (List Char × List Char)
  | 0, cs => some ([], cs)
  | _ + 1, [] => none
  | n + 1, c :: cs =>
    if c.utf8Size ≤ n + 1 then
      (splitAtByte? (n + 1 - c.utf8Size) cs).map fun cut => (c :: cut.1, cut.2)
    else
      none

/-- Whether an offset falls between two characters, or at either end. -/
def isBoundary (offset : Nat) (cs : List Char) : Bool :=
  (splitAtByte? offset cs).isSome

/-- The characters from one byte offset up to another. -/
def slice? (start stop : Nat) (cs : List Char) : Option (List Char) :=
  if start ≤ stop then do
    let (_, rest) ← splitAtByte? start cs
    let (part, _) ← splitAtByte? (stop - start) rest
    return part
  else
    none

/-- What is left of a text after a given start, if it has that start. -/
def afterStart? : List Char → List Char → Option (List Char)
  | [], cs => some cs
  | _ :: _, [] => none
  | w :: ws, c :: cs => if w = c then afterStart? ws cs else none

/-- The byte offsets between two characters of a text that starts at
`offset`, both ends included, in increasing order. -/
def boundaries (offset : Nat) : List Char → List Nat
  | [] => [offset]
  | c :: cs => offset :: boundaries (offset + c.utf8Size) cs

theorem afterStart?_eq_some {start cs rest : List Char} :
    afterStart? start cs = some rest ↔ cs = start ++ rest := by
  induction start generalizing cs with
  | nil => simp [afterStart?]
  | cons w ws ih =>
    cases cs with
    | nil => simp [afterStart?]
    | cons c cs => by_cases h : w = c <;> grind [afterStart?]

/-! ## Lengths and cuts -/

@[simp] theorem byteLength_nil : byteLength [] = 0 := rfl

@[simp] theorem byteLength_cons (c : Char) (cs : List Char) :
    byteLength (c :: cs) = c.utf8Size + byteLength cs := rfl

@[simp] theorem byteLength_append (a b : List Char) :
    byteLength (a ++ b) = byteLength a + byteLength b := by
  induction a with
  | nil => simp
  | cons c a ih => simp [ih, Nat.add_assoc]

@[simp] theorem splitAtByte?_zero (cs : List Char) : splitAtByte? 0 cs = some ([], cs) := by
  cases cs <;> rfl

/-- A cut gives the whole text back, and what stands in front of it is as long
as the offset says. -/
theorem splitAtByte?_eq_some {n : Nat} {cs a b : List Char}
    (h : splitAtByte? n cs = some (a, b)) : cs = a ++ b ∧ byteLength a = n := by
  induction cs generalizing n a b with
  | nil =>
    cases n with
    | zero => simp_all [splitAtByte?]
    | succ n => simp [splitAtByte?] at h
  | cons c cs ih =>
    cases n with
    | zero =>
      simp only [splitAtByte?_zero, Option.some.injEq, Prod.mk.injEq] at h
      obtain ⟨rfl, rfl⟩ := h
      simp
    | succ n =>
      rw [splitAtByte?] at h
      split at h
      · rename_i hle
        obtain ⟨⟨a', b'⟩, hcut, heq⟩ := Option.map_eq_some_iff.1 h
        simp only [Prod.mk.injEq] at heq
        obtain ⟨rfl, rfl⟩ := heq
        obtain ⟨rfl, hlen⟩ := ih hcut
        exact ⟨rfl, by simp only [byteLength_cons]; omega⟩
      · simp at h

/-- A text is cut where its first part ends. -/
@[simp] theorem splitAtByte?_append (a b : List Char) :
    splitAtByte? (byteLength a) (a ++ b) = some (a, b) := by
  induction a with
  | nil => simp
  | cons c a ih =>
    have hpos : 0 < c.utf8Size := Char.utf8Size_pos c
    obtain ⟨n, hn⟩ : ∃ n, byteLength (c :: a) = n + 1 :=
      ⟨byteLength (c :: a) - 1, by simp only [byteLength_cons]; omega⟩
    have hsub : n + 1 - c.utf8Size = byteLength a := by
      simp only [byteLength_cons] at hn; omega
    have hle : c.utf8Size ≤ n + 1 := by simp only [byteLength_cons] at hn; omega
    rw [hn, List.cons_append, splitAtByte?, if_pos hle, hsub, ih]
    rfl

/-- **The part between two cuts is the part a slice takes.** -/
theorem slice?_append (a b c : List Char) :
    slice? (byteLength a) (byteLength a + byteLength b) (a ++ b ++ c) = some b := by
  simp [slice?, List.append_assoc]

end Text

end UnitFile
