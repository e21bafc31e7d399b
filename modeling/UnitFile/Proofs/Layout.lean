import UnitFile.Proofs.Grammar
/-!
# Where the tokens of a text stand

Every token of a line is a stretch of the line, at the place its range names, and
begins with a character that is not blank (`Reads.placed`). So every token of a
text is a stretch of the text (`Progress.stands_of_mem`), and it ends for a reason:
a comment is followed by no blank, and a token that ends in `\r` by no `\n`
(`EndsBefore`). A token at the start of a line comes after all tokens of the lines
above (`Progress.read_pairwise`).
-/

namespace UnitFile

open Lexer Text

namespace Grammar

variable {d : Dialect} {carried assigned : Bool} {l : Location} {line : List Char}
variable {r : LineReading} {t : Token}

/-! ## The tokens of a line -/

/-- A token of a line, between what stands before and after it. -/
structure Placed (l : Location) (line : List Char) (t : Token) (before after : List Char) :
    Prop where
  split : line = before ++ t.text.toList ++ after
  token : t = tokenOf t.kind (l.past before) t.text.toList
  visible : t.kind.isVisible = true
  head : ∃ c ∈ t.text.toList.head?, isBlank c = false
  comment : t.kind = .comment → after = []

/-- A stretch of a line that begins with no blank is placed there. -/
theorem placed_tokenOf {kind : Kind} {a cs b : List Char} (hk : kind.isVisible = true)
    (hcs : ∃ c ∈ cs.head?, isBlank c = false) (hc : kind = .comment → b = []) :
    Placed l (a ++ cs ++ b) (tokenOf kind (l.past a) cs) a b where
  split := by simp [tokenOf]
  token := by simp [tokenOf]
  visible := hk
  head := by simpa [tokenOf] using hcs
  comment := hc

theorem Solid.exists_head {cs : List Char} (h : Solid cs) :
    ∃ c ∈ cs.head?, isBlank c = false := by
  obtain ⟨c, cs, rfl⟩ := List.exists_cons_of_ne_nil h.ne_nil
  exact ⟨c, rfl, h.head c rfl⟩

theorem ne_nil_of_head {cs : List Char} (h : ∃ c ∈ cs.head?, isBlank c = false) : cs ≠ [] := by
  rintro rfl
  simp at h

/-- A value after an assignment is placed behind it. -/
theorem ReadsValue.placed {pre cs : List Char} {ts : List Token}
    (h : ReadsValue ((l.past pre).past ['=']) cs ts) (ht : t ∈ ts) :
    ∃ gap after, Placed l (pre ++ '=' :: cs) t (pre ++ '=' :: gap) after := by
  cases h with
  | none => simp at ht
  | @some gap v tail hgap hv htail =>
    obtain rfl := List.mem_singleton.1 ht
    have hline : pre ++ '=' :: (gap ++ v ++ tail) = pre ++ '=' :: gap ++ v ++ tail := by simp
    rw [past_assigned, hline]
    exact ⟨gap, tail, placed_tokenOf rfl hv.exists_head (by simp)⟩

/-- **Every token of a line stands in it.** -/
theorem Reads.placed (h : Reads d carried assigned l line r) (ht : t ∈ r.tokens) :
    ∃ before after, Placed l line t before after := by
  have hequal : ∃ c ∈ ['='].head?, isBlank c = false := ⟨'=', rfl, rfl⟩
  cases h with
  | blank => simp at ht
  | @comment indent cs c hi hc =>
    obtain rfl := List.mem_singleton.1 ht
    have hplaced : Placed l (indent ++ c :: cs ++ [])
        (tokenOf .comment (l.past indent) (c :: cs)) indent [] :=
      placed_tokenOf rfl ⟨c, rfl, isBlank_of_isCommentSign hc⟩ fun _ => rfl
    rw [List.append_nil] at hplaced
    exact ⟨indent, [], hplaced⟩
  | @value indent v tail hi htaken hv hc htail =>
    obtain rfl := List.mem_singleton.1 ht
    exact ⟨indent, tail, placed_tokenOf rfl hv.exists_head (by simp)⟩
  | @assignment indent cs ts hi htaken ha hts =>
    rcases List.mem_cons.1 ht with rfl | ht
    · rw [← List.singleton_append, ← List.append_assoc]
      exact ⟨indent, cs, placed_tokenOf rfl hequal (by simp)⟩
    · obtain ⟨gap, after, hplaced⟩ := hts.placed ht
      exact ⟨_, _, hplaced⟩
  | @closedHeader indent name tail hi htaken hname =>
    obtain rfl := List.mem_singleton.1 ht
    exact ⟨indent, tail, placed_tokenOf rfl ⟨'[', rfl, rfl⟩ (by simp)⟩
  | @openHeader indent name tail hi htaken hs hname htail =>
    obtain rfl := List.mem_singleton.1 ht
    exact ⟨indent, tail, placed_tokenOf rfl hs.exists_head (by simp)⟩
  | @key indent cs tail c hi htaken hc hb ha hs he htail =>
    obtain rfl := List.mem_singleton.1 ht
    exact ⟨indent, tail, placed_tokenOf rfl hs.exists_head (by simp)⟩
  | @directive indent cs gap rest c ts hi htaken hc hb ha hs he hgap hts =>
    rcases List.mem_cons.1 ht with rfl | ht
    · rw [List.append_assoc]
      exact ⟨indent, gap ++ '=' :: rest, placed_tokenOf rfl hs.exists_head (by simp)⟩
    · rcases List.mem_cons.1 ht with rfl | ht
      · have hline : indent ++ c :: cs ++ gap ++ '=' :: rest =
            indent ++ c :: cs ++ gap ++ ['='] ++ rest := by simp
        rw [hline]
        exact ⟨indent ++ c :: cs ++ gap, rest, placed_tokenOf rfl hequal (by simp)⟩
      · obtain ⟨gap', after, hplaced⟩ := hts.placed ht
        exact ⟨_, _, hplaced⟩

namespace Placed

variable {before after : List Char}

theorem start_eq (h : Placed l line t before after) : t.range.start = l.past before := by
  rw [h.token]
  rfl

theorem stop_eq (h : Placed l line t before after) :
    t.range.stop = l.past (before ++ t.text.toList) := by
  rw [Location.past_append, h.token]
  simp [tokenOf]

theorem text_ne_nil (h : Placed l line t before after) : t.text.toList ≠ [] :=
  ne_nil_of_head h.head

end Placed

/-- The tokens of a line begin and end on it. -/
theorem Reads.line_eq (h : Reads d carried assigned l line r) (ht : t ∈ r.tokens) :
    t.range.start.line = l.line ∧ t.range.stop.line = l.line := by
  obtain ⟨before, after, hplaced⟩ := h.placed ht
  rw [hplaced.start_eq, hplaced.stop_eq]
  exact ⟨rfl, rfl⟩

/-- **Only the first token of a line can stand at its start.** -/
theorem Reads.column_lt {ts : List Token} (h : Reads d carried assigned l line r)
    (hr : r.tokens = t :: ts) {u : Token} (hu : u ∈ ts) : l.column < u.range.start.column := by
  have hpast : ∀ {pre : List Char}, pre ≠ [] → l.column < (l.past pre).column := by
    intro pre hne
    have hpos : byteLength pre ≠ 0 := fun h => hne (byteLength_eq_zero.1 h)
    simp only [Location.past_column]
    omega
  cases h with
  | blank => simp at hr
  | comment => simp_all
  | value => simp_all
  | assignment hi htaken ha hts =>
    obtain ⟨rfl, rfl⟩ := List.cons.inj hr
    obtain ⟨gap, after, hplaced⟩ := hts.placed hu
    rw [hplaced.start_eq]
    exact hpast (by simp)
  | closedHeader => simp_all
  | openHeader => simp_all
  | key => simp_all
  | directive hi htaken hc hb ha hs he hgap hts =>
    obtain ⟨rfl, rfl⟩ := List.cons.inj hr
    rcases List.mem_cons.1 hu with rfl | hu
    · exact hpast (by simp)
    · obtain ⟨gap', after, hplaced⟩ := hts.placed hu
      rw [hplaced.start_eq]
      exact hpast (by simp)

/-! ## The tokens of a text -/

/-- A token may end before the given rest of its text: a comment before no blank,
and one that ends in `\r` before no `\n`. -/
def EndsBefore (t : Token) (rest : List Char) : Prop :=
  (t.kind = .comment → ∀ c ∈ rest.head?, isBlank c = false) ∧
    (t.text.toList.getLast? = some '\r' → rest.head? ≠ some '\n')

namespace Placed

variable {before after : List Char}

/-- A token of the last line ends where it may. -/
theorem endsBefore (h : Placed l line t before after) (hline : '\n' ∉ line) :
    EndsBefore t after := by
  refine ⟨fun hc => by simp [h.comment hc], fun _ hhead => hline ?_⟩
  rw [h.split]
  exact List.mem_append_right _ (List.mem_of_mem_head? hhead)

/-- A token of a line with a break ends where it may. -/
theorem endsBefore_break {ln : Line} (h : Placed l ln.chars t before after) (hln : ln.Proper)
    (rest : List Char) : EndsBefore t (after ++ ln.stop.chars ++ rest) := by
  have hsplit := h.split
  refine ⟨fun hc => ?_, fun hcr => ?_⟩
  · rw [h.comment hc]
    cases ln.stop <;> simp [LineBreak.chars, isBlank]
  · cases after with
    | nil =>
      -- the `\r` is the last character of the line, so the break is no bare `\n`
      cases hstop : ln.stop with
      | lf =>
        have hlast : ln.chars.getLast? = some '\r' := by
          rw [hsplit, List.append_nil, List.getLast?_append_of_ne_nil _ h.text_ne_nil, hcr]
        exact absurd hlast (hln.2 hstop)
      | crlf => simp [LineBreak.chars]
    | cons c after =>
      have hc : c ≠ '\n' := by
        rintro rfl
        exact hln.1 (by rw [hsplit]; simp)
      simpa using hc

end Placed

/-- A token of a text that begins at the place `l`, between what stands before and
after it. -/
structure Stands (l : Location) (text : List Char) (t : Token) (before after : List Char) :
    Prop where
  split : text = before ++ t.text.toList ++ after
  start : t.range.start.offset = l.offset + byteLength before
  stop : t.range.stop.offset = l.offset + byteLength (before ++ t.text.toList)
  line : l.line ≤ t.range.start.line
  sameLine : t.range.start.line = l.line → t.range.start = l.past before
  oneLine : '\n' ∉ t.text.toList
  head : ∃ c ∈ t.text.toList.head?, isBlank c = false
  ends : EndsBefore t after

namespace Placed

variable {before after : List Char}

theorem stands (h : Placed l line t before after) (hline : '\n' ∉ line) :
    Stands l line t before after where
  split := h.split
  start := by rw [h.start_eq]; rfl
  stop := by rw [h.stop_eq]; rfl
  line := by rw [h.start_eq]; rfl
  sameLine := fun _ => h.start_eq
  oneLine := fun hmem => hline (by rw [h.split]; simp [hmem])
  head := h.head
  ends := h.endsBefore hline

theorem stands_break {ln : Line} (h : Placed l ln.chars t before after) (hln : ln.Proper)
    (rest : List Char) :
    Stands l (ln.whole ++ rest) t before (after ++ ln.stop.chars ++ rest) where
  split := by rw [Line.whole, h.split]; simp
  start := by rw [h.start_eq]; rfl
  stop := by rw [h.stop_eq]; rfl
  line := by rw [h.start_eq]; rfl
  sameLine := fun _ => h.start_eq
  oneLine := fun hmem => hln.1 (by rw [h.split]; simp [hmem])
  head := h.head
  ends := h.endsBefore_break hln rest

end Placed

theorem Stands.text_ne_nil {text before after : List Char} (h : Stands l text t before after) :
    t.text.toList ≠ [] :=
  ne_nil_of_head h.head

/-- The tokens of a line are on it, and hold no break. -/
theorem Reads.oneLine (h : Reads d carried assigned l line r) (hline : '\n' ∉ line)
    (ht : t ∈ r.tokens) :
    t.range.start.line = l.line ∧ '\n' ∉ t.text.toList ∧ t.text.toList ≠ [] := by
  obtain ⟨before, after, hplaced⟩ := h.placed ht
  have hstands := hplaced.stands hline
  exact ⟨(h.line_eq ht).1, hstands.oneLine, hstands.text_ne_nil⟩

/-- A token of the lines below stands in the whole text. -/
theorem Stands.below {text before after : List Char} (ln : Line)
    (h : Stands ((l.past ln.chars).nextLine ln.stop.width) text t before after) :
    Stands l (ln.whole ++ text) t (ln.whole ++ before) after := by
  obtain ⟨hsplit, hstart, hstop, hline, -, hone, hhead, hends⟩ := h
  simp only [Location.nextLine_offset, Location.past_offset, Location.nextLine_line,
    Location.past_line] at hstart hstop hline
  have hwidth : byteLength ln.whole = byteLength ln.chars + ln.stop.width := by
    simp [Line.whole]
  refine ⟨?_, ?_, ?_, by omega, fun hsame => by omega, hone, hhead, hends⟩
  · rw [hsplit]
    simp
  · rw [hstart, byteLength_append, hwidth]
    omega
  · rw [hstop, List.append_assoc, byteLength_append ln.whole, hwidth]
    omega

namespace Progress

variable {p : Progress} {text : List Char} {ts : List Token}

/-- The next line is of one of the forms of the grammar. -/
theorem reads_reading (d : Dialect) (p : Progress) (line : List Char) :
    Reads d p.carried (endsAssigned p.tokens) p.here line (p.reading d line) :=
  reads_readLine ..

@[simp] theorem next_tokens (ln : Line) :
    (p.next d ln).tokens = p.tokens ++ (p.reading d ln.chars).tokens := rfl

@[simp] theorem next_carried (ln : Line) :
    (p.next d ln).carried = (p.reading d ln.chars).carriesOn := rfl

@[simp] theorem next_here (ln : Line) :
    (p.next d ln).here = (p.here.past ln.chars).nextLine ln.stop.width := rfl

/-- What has been found is kept. -/
theorem exists_read_tokens (d : Dialect) (p : Progress) (text : List Char) :
    ∃ ts, (p.read d text).tokens = p.tokens ++ ts := by
  induction text using lines_induction generalizing p with
  | last cs hcs => exact ⟨_, by rw [read_of_notMem d p hcs]; rfl⟩
  | line ln hln rest ih =>
    obtain ⟨ts, hts⟩ := ih (p.next d ln)
    exact ⟨(p.reading d ln.chars).tokens ++ ts, by rw [read_whole_append d p hln, hts]; simp⟩

/-- The tokens of a text whose first line is complete: those of the line, and those
of the lines below. -/
theorem read_whole_tokens {ln : Line} {rest : List Char} (hln : ln.Proper)
    (h : (p.read d (ln.whole ++ rest)).tokens = p.tokens ++ ts) :
    ∃ below, ts = (p.reading d ln.chars).tokens ++ below ∧
      ((p.next d ln).read d rest).tokens = (p.next d ln).tokens ++ below := by
  obtain ⟨below, hbelow⟩ := exists_read_tokens d (p.next d ln) rest
  refine ⟨below, ?_, hbelow⟩
  rw [read_whole_append d p hln, hbelow, next_tokens, List.append_assoc] at h
  exact (List.append_cancel_left h).symm

/-- The tokens of a text of one line. -/
theorem read_last_tokens (hline : '\n' ∉ text) (h : (p.read d text).tokens = p.tokens ++ ts) :
    ts = (p.reading d text).tokens := by
  rw [read_of_notMem d p hline] at h
  exact (List.append_cancel_left h).symm

/-- **Every token of a text stands in it.** -/
theorem stands_of_mem (h : (p.read d text).tokens = p.tokens ++ ts) (ht : t ∈ ts) :
    ∃ before after, Stands p.here text t before after := by
  induction text using lines_induction generalizing p ts with
  | last cs hcs =>
    rw [read_last_tokens hcs h] at ht
    obtain ⟨before, after, hplaced⟩ := (reads_reading d p cs).placed ht
    exact ⟨before, after, hplaced.stands hcs⟩
  | line ln hln rest ih =>
    obtain ⟨below, rfl, hbelow⟩ := read_whole_tokens hln h
    rcases List.mem_append.1 ht with ht | ht
    · obtain ⟨before, after, hplaced⟩ := (reads_reading d p ln.chars).placed ht
      exact ⟨before, _, hplaced.stands_break hln rest⟩
    · obtain ⟨before, after, hstands⟩ := ih hbelow ht
      exact ⟨_, after, hstands.below ln⟩

/-- The tokens of the lines below are below. -/
theorem line_lt_of_mem {ln : Line} {rest : List Char}
    (h : ((p.next d ln).read d rest).tokens = (p.next d ln).tokens ++ ts) (ht : t ∈ ts) :
    p.here.line < t.range.start.line := by
  obtain ⟨before, after, hstands⟩ := stands_of_mem h ht
  have hle := hstands.line
  simp only [next_here, Location.nextLine_line, Location.past_line] at hle
  omega

end Progress

/-! ## The order of the tokens -/

/-- A token before another one: if the other one is at the start of its line, it
is on a line above. -/
def Precedes (t u : Token) : Prop :=
  u.range.start.column = 0 →
    t.range.stop.offset ≤ u.range.start.offset ∧ t.range.stop.line < u.range.start.line

/-- The tokens of a line are in order, since only the first one can stand at its
start. -/
theorem Reads.pairwise (h : Reads d carried assigned l line r) :
    r.tokens.Pairwise Precedes := by
  cases htokens : r.tokens with
  | nil => exact List.Pairwise.nil
  | cons t ts =>
    have hcolumn : ∀ u ∈ ts, u.range.start.column ≠ 0 := fun u hu => by
      have hlt := h.column_lt htokens hu
      omega
    refine List.Pairwise.cons (fun u hu hzero => absurd hzero (hcolumn u hu)) ?_
    exact List.pairwise_of_forall_mem_list fun _ _ u hu hzero => absurd hzero (hcolumn u hu)

/-- **The tokens of a text are in order.** -/
theorem Progress.read_pairwise {p : Progress} {text : List Char} {ts : List Token}
    (h : (p.read d text).tokens = p.tokens ++ ts) : ts.Pairwise Precedes := by
  induction text using lines_induction generalizing p ts with
  | last cs hcs =>
    rw [read_last_tokens hcs h]
    exact (reads_reading d p cs).pairwise
  | line ln hln rest ih =>
    obtain ⟨below, rfl, hbelow⟩ := read_whole_tokens hln h
    refine List.pairwise_append.2 ⟨(reads_reading d p ln.chars).pairwise, ih hbelow, ?_⟩
    -- `t` is on this line and `u` below it, so the break lies between them
    intro t ht u hu _
    obtain ⟨before, after, hplaced⟩ := (reads_reading d p ln.chars).placed ht
    obtain ⟨before', after', hstands⟩ := stands_of_mem hbelow hu
    have hstop := hplaced.stop_eq
    have hstart := hstands.start
    have hline := hstands.line
    have hlen := congrArg byteLength hplaced.split
    simp only [next_here, Location.nextLine_offset, Location.nextLine_line, Location.past_offset,
      Location.past_line, byteLength_append] at hstart hline hlen
    rw [hstop]
    simp only [Location.past_offset, Location.past_line, byteLength_append]
    omega

end Grammar

end UnitFile
