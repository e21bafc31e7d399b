import UnitFile.Lexer.Resume
import UnitFile.Proofs.Layout
/-!
# Respacing a line

The tokens of a line do not depend on which blanks stand between them, as long as
every token keeps its place. `Shows` says that a line shows given tokens at their
places, with nothing but blanks around them, or whatever trails a closed section
header. `Reads.respaced` says that a line which shows the tokens of another one
holds the same tokens. What the line carries on is then a matter of its last token
(`Reads.carriesOn_eq`).
-/

namespace UnitFile

open Lexer Text

namespace Grammar

variable {d : Dialect} {carried assigned : Bool} {l : Location} {line : List Char}
variable {r : LineReading}

/-! ## Lines that show given tokens -/

/-- The rest of a line, from the place `l` on, shows the tokens `ts` and nothing
else that counts. The flag says that a closed section header comes before, after
which nothing counts. -/
def Shows : Bool → Location → List Char → List Token → Prop
  | trailing, _, line, [] => trailing = true ∨ AllBlank line
  | trailing, l, line, t :: ts =>
    ∃ gap rest, line = gap ++ t.text.toList ++ rest ∧ (trailing = true ∨ AllBlank gap) ∧
      t.range = ⟨l.past gap, (l.past gap).past t.text.toList⟩ ∧
      (t.kind = .comment → ∀ c ∈ rest.head?, isBlank c = false) ∧
      Shows (isClosedHeader t) t.range.stop rest ts

/-- A token at the front of what a line shows. -/
theorem Shows.cons {start : Location} {kind : Kind} {cs : List Char} {ts : List Token}
    (h : Shows false l line (tokenOf kind start cs :: ts)) :
    ∃ gap rest, line = gap ++ cs ++ rest ∧ AllBlank gap ∧ start = l.past gap ∧
      (kind = .comment → ∀ c ∈ rest.head?, isBlank c = false) ∧
      Shows (isClosedHeader (tokenOf kind start cs)) (start.past cs) rest ts := by
  obtain ⟨gap, rest, hline, hgap, hrange, hcomment, hrest⟩ := h
  have hstart : start = l.past gap := congrArg Range.start hrange
  refine ⟨gap, rest, ?_, ?_, hstart, hcomment, hrest⟩
  · simpa [tokenOf] using hline
  · simpa using hgap

theorem isClosedHeader_of_ne {kind : Kind} {cs : List Char} (h : kind ≠ .header) :
    isClosedHeader (tokenOf kind l cs) = false := by
  simp [isClosedHeader, tokenOf, h]

/-- A token that is no section header, at the end of what a line shows. -/
theorem Shows.last {start : Location} {kind : Kind} {cs : List Char} (hk : kind ≠ .header)
    (h : Shows false l line [tokenOf kind start cs]) :
    ∃ gap tail, line = gap ++ cs ++ tail ∧ AllBlank gap ∧ start = l.past gap ∧
      (kind = .comment → ∀ c ∈ tail.head?, isBlank c = false) ∧ AllBlank tail := by
  obtain ⟨gap, tail, hline, hgap, hstart, hcomment, htail⟩ := h.cons
  rw [isClosedHeader_of_ne hk] at htail
  exact ⟨gap, tail, hline, hgap, hstart, hcomment, htail.resolve_left (by simp)⟩

/-- Every blank is one byte. -/
theorem AllBlank.byteLength_eq {w : List Char} (h : AllBlank w) : byteLength w = w.length := by
  induction w with
  | nil => rfl
  | cons c w ih =>
    have hc : c = ' ' ∨ c = '\t' := by simpa [isBlank] using h c (by simp)
    have hsize : c.utf8Size = 1 := by rcases hc with rfl | rfl <;> rfl
    rw [byteLength_cons, hsize, ih fun x hx => h x (by simp [hx]), List.length_cons]
    omega

/-- Indents of the same width take up the same. -/
theorem takesUp_congr {a b : List Char} (ha : AllBlank a) (hb : AllBlank b)
    (h : l.past a = l.past b) : takesUp d carried a = takesUp d carried b := by
  have hlen : a.length = b.length := by
    have hoff := congrArg Location.offset h
    simp only [Location.past_offset, ha.byteLength_eq, hb.byteLength_eq] at hoff
    omega
  rw [takesUp, takesUp, hlen]

/-- What follows an assignment, respaced. -/
theorem ReadsValue.respaced {cs cs' : List Char} {ts : List Token} (h : ReadsValue l cs ts)
    (hs : Shows false l cs' ts) : ReadsValue l cs' ts := by
  cases h with
  | none => exact ReadsValue.none (hs.resolve_left (by simp))
  | some hgap hv htail =>
    obtain ⟨gap, tail, rfl, hgap', hstart, -, htail'⟩ := hs.last (by simp)
    rw [hstart]
    exact ReadsValue.some hgap' hv htail'

/-- **Blanks do not matter.** A line that shows the tokens of another one holds
them. -/
theorem Reads.respaced {line' : List Char} (h : Reads d carried assigned l line r)
    (hne : r.tokens ≠ []) (hs : Shows false l line' r.tokens) :
    (readLine d carried assigned l line').tokens = r.tokens := by
  suffices hreads : ∃ r', Reads d carried assigned l line' r' ∧ r'.tokens = r.tokens by
    obtain ⟨r', hr', htokens⟩ := hreads
    rw [← hr'.eq_readLine, htokens]
  cases h with
  | blank => simp at hne
  | comment hi hc =>
    obtain ⟨gap, tail, rfl, hgap, hstart, hcomment, htail⟩ := hs.last (by simp)
    -- the blanks after a comment would belong to it
    have hnil : tail = [] := by
      cases tail with
      | nil => rfl
      | cons c tail => simpa [hcomment rfl c rfl] using htail c (by simp)
    rw [hnil, List.append_nil]
    exact ⟨_, Reads.comment hgap hc, by rw [hstart]⟩
  | value hi htaken hv hc htail =>
    obtain ⟨gap, tail, rfl, hgap, hstart, -, htail'⟩ := hs.last (by simp)
    exact ⟨_, Reads.value hgap (takesUp_congr hi hgap hstart ▸ htaken) hv hc htail', by rw [hstart]⟩
  | @assignment indent cs ts hi htaken ha hts =>
    obtain ⟨gap, rest, rfl, hgap, hstart, -, hrest⟩ := hs.cons
    rw [isClosedHeader_of_ne (by simp)] at hrest
    have hts' := hts.respaced hrest
    rw [hstart] at hts'
    have hreads := Reads.assignment (d := d) hgap (takesUp_congr hi hgap hstart ▸ htaken) ha hts'
    rw [List.append_assoc, List.singleton_append]
    exact ⟨_, hreads, by rw [hstart]⟩
  | closedHeader hi htaken hname =>
    obtain ⟨gap, rest, rfl, hgap, hstart, -, -⟩ := hs.cons
    exact ⟨_, Reads.closedHeader hgap (takesUp_congr hi hgap hstart ▸ htaken) hname, by rw [hstart]⟩
  | @openHeader indent name tail hi htaken hsolid hname htail =>
    obtain ⟨gap, rest, rfl, hgap, hstart, -, hrest⟩ := hs.cons
    -- without a `]` at its end the header has only blanks behind it
    have hopen : isClosedHeader (tokenOf .header (l.past indent) ('[' :: name)) = false := by
      have hlast : ('[' :: name).getLast? ≠ some ']' := fun h =>
        (List.mem_cons.1 (List.mem_of_getLast? h)).elim (by decide) hname
      simpa [isClosedHeader, tokenOf] using hlast
    rw [hopen] at hrest
    exact ⟨_, Reads.openHeader hgap (takesUp_congr hi hgap hstart ▸ htaken) hsolid hname
      (hrest.resolve_left (by simp)), by rw [hstart]⟩
  | key hi htaken hc hb ha hsolid he htail =>
    obtain ⟨gap, tail, rfl, hgap, hstart, -, htail'⟩ := hs.last (by simp)
    exact ⟨_, Reads.key hgap (takesUp_congr hi hgap hstart ▸ htaken) hc hb ha hsolid he htail',
      by rw [hstart]⟩
  | @directive indent cs gap rest c ts hi htaken hc hb ha hsolid he hgap hts =>
    -- the gaps before the key, before the assignment and before the value, one by one
    obtain ⟨gap₁, rest₁, rfl, hgap₁, hstart₁, -, hrest₁⟩ := hs.cons
    rw [isClosedHeader_of_ne (by simp)] at hrest₁
    obtain ⟨gap₂, rest₂, rfl, hgap₂, hstart₂, -, hrest₂⟩ := hrest₁.cons
    rw [isClosedHeader_of_ne (by simp)] at hrest₂
    have hplace : l.past (indent ++ c :: cs ++ gap) = l.past (gap₁ ++ c :: cs ++ gap₂) := by
      rw [hstart₂, Location.past_append, Location.past_append, hstart₁]
    have hts' := hts.respaced hrest₂
    rw [hplace] at hts'
    have hreads := Reads.directive (d := d) hgap₁ (takesUp_congr hi hgap₁ hstart₁ ▸ htaken) hc hb ha
      hsolid he hgap₂ hts'
    have hline : gap₁ ++ c :: cs ++ (gap₂ ++ ['='] ++ rest₂) =
        gap₁ ++ c :: cs ++ gap₂ ++ '=' :: rest₂ := by simp
    rw [hline]
    exact ⟨_, hreads, by rw [hstart₁, hplace]⟩

/-! ## What a line carries on -/

/-- What a line carries on, as its last token tells. The flag `bare` says that
nothing follows the token on its line. -/
def carriedBy (d : Dialect) (carried : Bool) (l : Location) (t : Token) (bare : Bool) : Bool :=
  match t.kind with
  | .comment => carried && (d.hasEscapes || isIndent (t.range.start.column - l.column))
  | .key => endsEscaped d t && bare
  | .value | .assignment => if d.hasEscapes then endsEscaped d t && bare else true
  | _ => false

@[simp] theorem endsEscaped_tokenOf (kind : Kind) (cs : List Char) :
    endsEscaped d (tokenOf kind l cs) =
      (d.hasEscapes && kind.isEscapable && cs.getLast? == some '\\') := by
  simp [endsEscaped, tokenOf, Token.endsInBackslash]

/-- A line that ends in a solid part and blanks ends in a backslash if the solid
part does and the blanks are none. -/
theorem getLast?_solid (l : Location) (pre : List Char) {v tail : List Char} (hv : Solid v)
    (htail : AllBlank tail) :
    ((pre ++ v ++ tail).getLast? == some '\\') =
      (v.getLast? == some '\\' && (l.past pre).past v == l.past (pre ++ v ++ tail)) := by
  rw [← Location.past_append]
  cases hlast : tail.getLast? with
  | none =>
    obtain rfl := List.getLast?_eq_none_iff.1 hlast
    simp [List.getLast?_append_of_ne_nil _ hv.ne_nil]
  | some x =>
    have hne := ne_backslash_of_isBlank (htail x (List.mem_of_getLast? hlast))
    have hplace : l.past (pre ++ v) ≠ l.past (pre ++ v ++ tail) := by
      intro heq
      have hoff : byteLength tail = 0 := by
        have hoff := congrArg Location.offset heq
        simpa using hoff
      simp [byteLength_eq_zero.1 hoff] at hlast
    rw [List.getLast?_append_of_ne_nil _ (by rintro rfl; simp at hlast), hlast,
      beq_eq_false_iff_ne.2 hplace]
    simpa using hne

/-- A line that ends in a value. -/
theorem runsOn_value {pre v tail : List Char} (hv : Solid v) (htail : AllBlank tail) :
    runsOn d true (pre ++ v ++ tail) =
      carriedBy d carried l (tokenOf .value (l.past pre) v)
        ((tokenOf .value (l.past pre) v).range.stop == l.past (pre ++ v ++ tail)) := by
  have hlast := getLast?_solid l pre hv htail
  have hkind : (tokenOf .value (l.past pre) v).kind = .value := rfl
  simp only [runsOn, carriedBy, hkind, hlast, endsEscaped_tokenOf]
  cases d <;> rfl

/-- A line that ends in an assignment, or in the value after it. -/
theorem runsOn_assigned {pre cs : List Char} {ts : List Token} {t : Token}
    (h : ReadsValue ((l.past pre).past ['=']) cs ts)
    (ht : (tokenOf .assignment (l.past pre) ['='] :: ts).getLast? = some t) :
    runsOn d true (pre ++ '=' :: cs) =
      carriedBy d carried l t (t.range.stop == l.past (pre ++ '=' :: cs)) := by
  cases h with
  | none hcs =>
    obtain rfl : tokenOf .assignment (l.past pre) ['='] = t := by simpa using ht
    have hlast : ((pre ++ '=' :: cs).getLast? == some '\\') = false :=
      beq_eq_false_iff_ne.2 (getLast?_assigned_ne hcs)
    have hkind : (tokenOf .assignment (l.past pre) ['=']).kind = .assignment := rfl
    simp only [runsOn, carriedBy, hkind, hlast, endsEscaped_tokenOf]
    cases d <;> rfl
  | @some gap v tail hgap hv htail =>
    obtain rfl : tokenOf .value (((l.past pre).past ['=']).past gap) v = t := by simpa using ht
    have hline : pre ++ '=' :: (gap ++ v ++ tail) = pre ++ '=' :: gap ++ v ++ tail := by simp
    rw [past_assigned, hline]
    exact runsOn_value hv htail

/-- **What a line carries on is a matter of its last token**, of what was carried
into it, and of whether anything follows the token. -/
theorem Reads.carriesOn_eq {t : Token} (h : Reads d carried assigned l line r)
    (ht : r.tokens.getLast? = some t) :
    r.carriesOn = carriedBy d carried l t (t.range.stop == l.past line) := by
  cases h with
  | blank => simp at ht
  | @comment indent cs c hi hc =>
    obtain rfl : tokenOf .comment (l.past indent) (c :: cs) = t := by simpa using ht
    have hindent : (l.past indent).column - l.column = indent.length := by
      rw [Location.past_column, hi.byteLength_eq]
      omega
    simp only [carriedBy, tokenOf, takesUp, hindent]
  | @value indent v tail hi htaken hv hc htail =>
    obtain rfl : tokenOf .value (l.past indent) v = t := by simpa using ht
    exact runsOn_value hv htail
  | @assignment indent cs ts hi htaken ha hts => exact runsOn_assigned hts ht
  | @closedHeader indent name tail hi htaken hname =>
    obtain rfl : tokenOf .header (l.past indent) ('[' :: (name ++ [']'])) = t := by simpa using ht
    rfl
  | @openHeader indent name tail hi htaken hs hname htail =>
    obtain rfl : tokenOf .header (l.past indent) ('[' :: name) = t := by simpa using ht
    rfl
  | @key indent cs tail c hi htaken hc hb ha hs he htail =>
    obtain rfl : tokenOf .key (l.past indent) (c :: cs) = t := by simpa using ht
    have hkind : (tokenOf .key (l.past indent) (c :: cs)).kind = .key := rfl
    simp only [runsOn, carriedBy, hkind, getLast?_solid l indent hs htail, endsEscaped_tokenOf]
    cases d <;> rfl
  | @directive indent cs gap rest c ts hi htaken hc hb ha hs he hgap hts =>
    rw [List.getLast?_cons_cons] at ht
    exact runsOn_assigned hts ht

end Grammar

end UnitFile
