import UnitFile.Proofs.Trust
/-!
# Two texts side by side

The tokens of one text are found in another one, up to a token `u` at the start of
a line. Then the other text, read from its start, holds exactly these tokens when
it comes to `u` (`Found.read_to`). The two texts are walked line by line. They
agree on the tokens and on the line reached (`Agrees`), and on the rest of what
decides a line as soon as the next token is on it; blank lines may differ in
between.

Whether a systemd line is carried on is known from the tokens alone, by the last
one that is no comment (`CodeCarried`).
-/

namespace UnitFile

open Lexer Text Grammar

namespace Grammar

variable {d : Dialect} {carried assigned : Bool} {l : Location} {line : List Char}
variable {r : LineReading} {t u : Token}

/-! ## Facts about a single line -/

theorem Reads.carriesOn_of_nil (h : Reads d carried assigned l line r) (hr : r.tokens = []) :
    r.carriesOn = false := by
  cases h <;> simp_all

/-- A token at the start of its line is the first one on it. -/
theorem Reads.eq_nil_of_column {ts vs : List Token} (h : Reads d carried assigned l line r)
    (hr : r.tokens = ts ++ u :: vs) (hzero : u.range.start.column = 0) : ts = [] := by
  cases ts with
  | nil => rfl
  | cons t ts =>
    have hlt := h.column_lt hr (List.mem_append_right ts List.mem_cons_self)
    omega

/-- A token at the start of its line is the first one of a given line, or comes
after all tokens of that line. -/
theorem Reads.split_at_column {ts vs below : List Token}
    (h : Reads d carried assigned l line r) (htokens : ts ++ u :: vs = r.tokens ++ below)
    (hzero : u.range.start.column = 0) :
    (ts = [] ∧ u ∈ r.tokens) ∨ ∃ rest, ts = r.tokens ++ rest ∧ below = rest ++ u :: vs := by
  rcases List.append_eq_append_iff.1 htokens with ⟨xs, hxs, hvs⟩ | hrest
  · cases xs with
    | nil => exact Or.inr ⟨[], by simpa using hxs.symm, by simpa using hvs.symm⟩
    | cons x xs =>
      obtain rfl : u = x := (List.cons.inj hvs).1
      exact Or.inl ⟨h.eq_nil_of_column hxs hzero, by simp [hxs]⟩
  · exact Or.inr hrest

/-- A comment is alone on its line. -/
theorem Reads.comment_alone (h : Reads d carried assigned l line r) (ht : t ∈ r.tokens)
    (hk : t.kind = .comment) : r.tokens = [t] := by
  have hne : ∀ {kind : Kind} {l : Location} {cs : List Char}, kind ≠ .comment →
      t ≠ tokenOf kind l cs := by
    rintro kind l cs hkind rfl
    exact hkind hk
  have hvalue : ∀ {l : Location} {cs : List Char} {ts : List Token}, ReadsValue l cs ts →
      t ∉ ts := by
    intro l cs ts hts hmem
    cases hts with
    | none => simp at hmem
    | some => exact hne (by decide) (List.mem_singleton.1 hmem)
  cases h with
  | blank => simp at ht
  | comment => rw [List.mem_singleton.1 ht]
  | value => exact absurd (List.mem_singleton.1 ht) (hne (by decide))
  | assignment hi htaken ha hts =>
    rcases List.mem_cons.1 ht with ht | ht
    · exact absurd ht (hne (by decide))
    · exact absurd ht (hvalue hts)
  | closedHeader => exact absurd (List.mem_singleton.1 ht) (hne (by decide))
  | openHeader => exact absurd (List.mem_singleton.1 ht) (hne (by decide))
  | key => exact absurd (List.mem_singleton.1 ht) (hne (by decide))
  | directive hi htaken hc hb ha hs he hgap hts =>
    rcases List.mem_cons.1 ht with ht | ht
    · exact absurd ht (hne (by decide))
    · rcases List.mem_cons.1 ht with ht | ht
      · exact absurd ht (hne (by decide))
      · exact absurd ht (hvalue hts)

/-- In a systemd file a line that ends in no comment is carried on by an escaped
token only. -/
theorem endsEscaped_of_carriedBy {bare : Bool} (hd : d.hasEscapes = true)
    (hk : t.kind ≠ .comment) (h : carriedBy d carried l t bare = true) :
    endsEscaped d t = true := by
  unfold carriedBy at h
  rw [hd] at h
  split at h
  · contradiction
  · exact (Bool.and_eq_true_iff.1 h).1
  · exact (Bool.and_eq_true_iff.1 h).1
  · exact (Bool.and_eq_true_iff.1 h).1
  · contradiction

/-- Only an escaped token makes it matter what follows on the line. -/
theorem carriedBy_congr {bare bare' : Bool} (h : endsEscaped d t = true → bare = bare') :
    carriedBy d carried l t bare = carriedBy d carried l t bare' := by
  cases hescaped : endsEscaped d t with
  | true => rw [h hescaped]
  | false =>
    unfold carriedBy
    split <;> simp [hescaped]

/-- A blank line holds nothing and carries nothing on. -/
theorem readLine_blank (h : AllBlank line) :
    (readLine d carried assigned l line).tokens = [] ∧
      (readLine d carried assigned l line).carriesOn = false := by
  rw [← (Reads.blank h : Reads d carried assigned l line _).eq_readLine]
  exact ⟨rfl, rfl⟩

/-- In a mkosi file nothing is carried into a line that is not indented. -/
theorem readLine_unindented (hd : d.hasEscapes = false)
    (h : ∀ c ∈ line.head?, isBlank c = false) :
    readLine d carried assigned l line = readLine d false assigned l line := by
  have hindent : line.takeWhile isBlank = [] := by
    cases line with
    | nil => rfl
    | cons c cs => simp [h c rfl]
  unfold readLine
  simp [hindent, takesUp, isIndent, hd]

/-! ## The last token that is no comment -/

/-- The last of some tokens that is no comment, or else the one before them. -/
def lastCode (code : Option Token) (ts : List Token) : Option Token :=
  ts.foldl (fun code t => if t.kind = .comment then code else some t) code

/-- What is carried into a line of a systemd file comes from the last token that is
no comment. -/
def CodeCarried (d : Dialect) (p : Progress) : Prop :=
  d.hasEscapes = true → p.carried = true → (lastCode none p.tokens).any (endsEscaped d) = true

/-- **This is so on every line.** -/
theorem CodeCarried.next {p : Progress} (h : CodeCarried d p) (ln : Line) :
    CodeCarried d (p.next d ln) := by
  intro hd hcarried
  have hreads := Progress.reads_reading d p ln.chars
  rw [Progress.next_carried] at hcarried
  rw [Progress.next_tokens]
  generalize p.reading d ln.chars = r at hreads hcarried
  cases hlast : r.tokens.getLast? with
  | none =>
    rw [hreads.carriesOn_of_nil (List.getLast?_eq_none_iff.1 hlast)] at hcarried
    simp at hcarried
  | some t =>
    have hcarry := hreads.carriesOn_eq hlast
    rw [hcarried] at hcarry
    by_cases hk : t.kind = .comment
    · -- a comment hands on what was carried into its line
      have hold : p.carried = true := by
        simp only [carriedBy, hk] at hcarry
        exact (Bool.and_eq_true_iff.1 hcarry.symm).1
      rw [hreads.comment_alone (List.mem_of_getLast? hlast) hk, lastCode, List.foldl_append]
      simpa [hk, lastCode] using h hd hold
    · have hescaped := endsEscaped_of_carriedBy hd hk hcarry.symm
      obtain ⟨init, hinit⟩ := List.getLast?_eq_some_iff.1 hlast
      rw [hinit, ← List.append_assoc, lastCode, List.foldl_append]
      simpa [hk] using hescaped

end Grammar

namespace Lexer

variable {d : Dialect} {p q : Progress} {u w : Token} {ts : List Token}

/-! ## Walking two texts line by line -/

/-- Two texts are read up to the same line with the same tokens. If the next token
is on that line, the place and what is carried into the line are the same too. -/
structure Agrees (p q : Progress) (next : Token) : Prop where
  tokens : q.tokens = p.tokens
  line : q.here.line = p.here.line
  same : next.range.start.line = p.here.line → q.here = p.here ∧ q.carried = p.carried

/-- A line that shows the tokens of another one holds them. -/
theorem reading_tokens_eq {line line' : List Char} (htokens : q.tokens = p.tokens)
    (hsame : (p.reading d line).tokens ≠ [] → q.here = p.here ∧ q.carried = p.carried)
    (hshows : Shows false q.here line' (p.reading d line).tokens) :
    (q.reading d line').tokens = (p.reading d line).tokens := by
  by_cases hnil : (p.reading d line).tokens = []
  · rw [hnil] at hshows ⊢
    exact (readLine_blank (hshows.resolve_left (by simp))).1
  · obtain ⟨hhere, hcarried⟩ := hsame hnil
    rw [hhere] at hshows
    have hrespaced := (p.reads_reading d line).respaced hnil hshows
    rw [Progress.reading, hhere, hcarried, htokens]
    exact hrespaced

/-- And it carries on the same, if both lines end with an escaped last token. -/
theorem reading_carriesOn_eq {line line' : List Char} (htokens : q.tokens = p.tokens)
    (hsame : (p.reading d line).tokens ≠ [] → q.here = p.here ∧ q.carried = p.carried)
    (hshows : Shows false q.here line' (p.reading d line).tokens)
    (hescaped : ∀ t ∈ (p.reading d line).tokens.getLast?, endsEscaped d t = true →
      t.range.stop = p.here.past line ∧ t.range.stop = q.here.past line') :
    (q.reading d line').carriesOn = (p.reading d line).carriesOn := by
  have heq := reading_tokens_eq htokens hsame hshows
  have hp := p.reads_reading d line
  have hq := q.reads_reading d line'
  cases hlast : (p.reading d line).tokens.getLast? with
  | none =>
    have hnil := List.getLast?_eq_none_iff.1 hlast
    rw [hp.carriesOn_of_nil hnil, hq.carriesOn_of_nil (heq.trans hnil)]
  | some t =>
    obtain ⟨hhere, hcarried⟩ := hsame (by rintro hnil; simp [hnil] at hlast)
    rw [hp.carriesOn_eq hlast, hq.carriesOn_eq (heq ▸ hlast), hhere, hcarried]
    refine carriedBy_congr fun ht => ?_
    obtain ⟨hstop, hstop'⟩ := hescaped t hlast ht
    rw [← hhere, ← hstop', hhere, ← hstop]

/-- The first of the tokens found. -/
theorem Found.head {escaped trailing : Bool} {l : Location} {text : List Char}
    (h : Found d u escaped trailing l text ts) (hw : w ∈ (ts ++ [u]).head?) :
    ∃ gap rest, FoundNext escaped trailing l text w gap rest := by
  cases h with
  | @last _ _ _ _ gap rest hu =>
    obtain rfl : u = w := by simpa using hw
    exact ⟨gap, rest, hu⟩
  | @cons _ _ _ _ gap rest t _ ht =>
    obtain rfl : t = w := by simpa using hw
    exact ⟨gap, rest, ht⟩

/-- Line starts that lead to one token on their line are the same place. -/
theorem lineStart_unique {l l' : Location} {text text' before after gap rest : List Char}
    {escaped trailing : Bool} (hl : l.column = 0) (hl' : l'.column = 0) (hline : l'.line = l.line)
    (h : Stands l text w before after) (h' : FoundNext escaped trailing l' text' w gap rest)
    (hw : w.range.start.line = l.line) : l' = l := by
  have hstart := h.sameLine hw
  obtain ⟨-, -, hstart'⟩ := crossGap?_line h'.crossed (hw.trans hline.symm)
  rw [hstart] at hstart'
  have hoffset := congrArg Location.offset hstart'
  have hcolumn := congrArg Location.column hstart'
  simp only [Location.past_offset, Location.past_column] at hoffset hcolumn
  obtain ⟨o, n, k⟩ := l
  obtain ⟨o', n', k'⟩ := l'
  simp only [Location.mk.injEq] at *
  omega

/-- An escaped token that a bare `\n` follows in one text is followed by it in the
other one, if the lines below start at the same place. -/
theorem stop_eq_past {t : Token} {ln ln' : Line} {before after : List Char} {l l' : Location}
    (h : Placed l ln.chars t before after) (hlf : ln'.stop = .lf)
    (hstop : t.range.stop = l'.past ln'.chars)
    (hhere : (l'.past ln'.chars).nextLine ln'.stop.width =
      (l.past ln.chars).nextLine ln.stop.width) :
    t.range.stop = l.past ln.chars := by
  have hoffset := congrArg Location.offset hhere
  rw [← hstop, h.stop_eq, hlf] at hoffset
  have hlen := congrArg byteLength h.split
  simp only [Location.nextLine_offset, Location.past_offset, byteLength_append] at hoffset hlen
  have hwidth : 1 ≤ ln.stop.width := by cases ln.stop <;> decide
  have hlf' : LineBreak.lf.width = 1 := rfl
  have hafter : after = [] := byteLength_eq_zero.1 (by omega)
  rw [h.stop_eq, h.split, hafter, List.append_nil]

/-- The next token is one of those of the lines below. -/
theorem mem_of_mem_head? {vs : List Token} (h : w ∈ (ts ++ [u]).head?) : w ∈ ts ++ u :: vs := by
  have hmem : w ∈ ts ++ [u] := List.mem_of_mem_head? h
  rw [← List.singleton_append, ← List.append_assoc]
  exact List.mem_append_left _ hmem

/-- **One line.** If the tokens of a line and those below it are found in another
text, the other text has a line that holds the same tokens, and the texts agree
again on the lines below. -/
theorem Agrees.step {ln : Line} {rest after : List Char} {vs : List Token} (hln : ln.Proper)
    (hread : ((p.next d ln).read d rest).tokens = (p.next d ln).tokens ++ (ts ++ u :: vs))
    (hagree : ∀ w ∈ ((p.reading d ln.chars).tokens ++ ts ++ [u]).head?, Agrees p q w)
    (hfound : Found d u false false q.here after ((p.reading d ln.chars).tokens ++ ts)) :
    ∃ ln' : Line, ∃ rest', after = ln'.whole ++ rest' ∧ ln'.Proper ∧
      (q.reading d ln'.chars).tokens = (p.reading d ln.chars).tokens ∧
      Found d u false false (q.next d ln').here rest' ts ∧
      ∀ w ∈ (ts ++ [u]).head?, Agrees (p.next d ln) (q.next d ln') w := by
  have hreads := p.reads_reading d ln.chars
  obtain ⟨htokens, hline⟩ : q.tokens = p.tokens ∧ q.here.line = p.here.line := by
    have hne : (p.reading d ln.chars).tokens ++ ts ++ [u] ≠ [] := by simp
    have hw := hagree _ (List.head?_eq_some_head hne)
    exact ⟨hw.tokens, hw.line⟩
  have hsame : (p.reading d ln.chars).tokens ≠ [] → q.here = p.here ∧ q.carried = p.carried := by
    intro hne
    have hhead : (p.reading d ln.chars).tokens.head hne ∈
        ((p.reading d ln.chars).tokens ++ ts ++ [u]).head? := by
      rw [List.append_assoc, List.head?_append_of_ne_nil _ hne]
      exact List.head?_eq_some_head hne
    exact (hagree _ hhead).same (hreads.line_eq (List.head_mem hne)).1
  obtain ⟨ln', rest', rfl, hln', hshows, hescaped, hfound'⟩ :=
    hfound.cross_line (fun t ht => hline ▸ hreads.oneLine hln.1 ht)
      (fun w hw => hline ▸ Progress.line_lt_of_mem hread (mem_of_mem_head? hw))
  refine ⟨ln', rest', rfl, hln', reading_tokens_eq htokens hsame hshows, hfound', ?_⟩
  intro w hw
  refine ⟨?_, by simp [hline], fun hwline => ?_⟩
  · rw [Progress.next_tokens, Progress.next_tokens, reading_tokens_eq htokens hsame hshows,
      htokens]
  -- the next token is on the line below, so both lines below start at one place
  obtain ⟨before, after, hstands⟩ := Progress.stands_of_mem hread (mem_of_mem_head? hw)
  obtain ⟨gap, tail, hnext⟩ := hfound'.head hw
  have hhere : (q.next d ln').here = (p.next d ln).here :=
    lineStart_unique rfl rfl (by simp [hline]) hstands hnext hwline
  refine ⟨hhere, reading_carriesOn_eq htokens hsame hshows fun t ht hesc => ?_⟩
  obtain ⟨init, hinit⟩ := List.getLast?_eq_some_iff.1 ht
  rw [hinit] at hescaped
  obtain ⟨hstop, hlf⟩ := hescaped (by simpa [lastEscaped] using hesc)
  have hstop' : t.range.stop = q.here.past ln'.chars := by simpa [lastStop] using hstop
  obtain ⟨before, after, hplaced⟩ := hreads.placed (List.mem_of_getLast? ht)
  exact ⟨stop_eq_past hplaced hlf hstop' hhere, hstop'⟩

/-- Where a text is read on after a complete front part. -/
structure ReadsOn (d : Dialect) (p : Progress) (text : List Char) (q : Progress)
    (rest : List Char) : Prop where
  read : p.read d text = q.read d rest
  split : ∃ front, text = front ++ rest ∧ q.here.offset = p.here.offset + byteLength front
  code : CodeCarried d q

theorem ReadsOn.refl (hcode : CodeCarried d q) (text : List Char) : ReadsOn d q text q text :=
  ⟨rfl, ⟨[], rfl, rfl⟩, hcode⟩

theorem ReadsOn.of_next {ln : Line} {text rest : List Char} {q' : Progress} (hln : ln.Proper)
    (h : ReadsOn d (q.next d ln) text q' rest) : ReadsOn d q (ln.whole ++ text) q' rest := by
  obtain ⟨hread, ⟨front, rfl, hoffset⟩, hcode⟩ := h
  refine ⟨by rw [Progress.read_whole_append d q hln, hread], ⟨ln.whole ++ front, ?_, ?_⟩, hcode⟩
  · rw [List.append_assoc]
  · rw [hoffset, Progress.next_here, Location.nextLine_offset, Location.past_offset, Line.whole,
      byteLength_append, byteLength_append, LineBreak.byteLength_chars]
    omega

/-- A token at the start of the line reached is found right there. -/
theorem Found.read_here {after : List Char} (h : Found d u false false q.here after [])
    (hline : u.range.start.line = q.here.line) (hzero : u.range.start.column = 0) :
    q.here = u.range.start ∧ ∃ tail, after = u.text.toList ++ tail := by
  obtain ⟨gap, rest, hu⟩ := h.head rfl
  obtain ⟨-, -, hstart⟩ := crossGap?_line hu.crossed hline
  have hcolumn := congrArg Location.column hstart
  rw [hzero, Location.past_column] at hcolumn
  have hgap : gap = [] := byteLength_eq_zero.1 (by omega)
  have hsplit := hu.split
  rw [hgap] at hstart hsplit
  exact ⟨hstart.symm, rest, hsplit⟩

/-- **The whole way.** If the tokens of a text, up to a token at the start of a
line, are found in another text, the other text holds these tokens when it comes to
that line. -/
theorem Found.read_to {before after : List Char} {vs : List Token}
    (hfound : Found d u false false q.here after ts)
    (hread : (p.read d before).tokens = p.tokens ++ (ts ++ u :: vs))
    (hzero : u.range.start.column = 0) (hagree : ∀ w ∈ (ts ++ [u]).head?, Agrees p q w)
    (hcode : CodeCarried d q) :
    ∃ q' rest, ReadsOn d q after q' rest ∧ q'.tokens = q.tokens ++ ts ∧
      q'.here = u.range.start ∧ ∃ tail, rest = u.text.toList ++ tail := by
  induction before using lines_induction generalizing p q after ts with
  | last cs hcs =>
    have hreads := p.reads_reading d cs
    have htokens := Progress.read_last_tokens hcs hread
    obtain rfl := hreads.eq_nil_of_column htokens.symm hzero
    have hu : u ∈ (p.reading d cs).tokens := by simp [← htokens]
    have hline := (hreads.line_eq hu).1.trans (hagree u rfl).line.symm
    exact ⟨q, after, .refl hcode after, by simp, hfound.read_here hline hzero⟩
  | line ln hln rest ih =>
    have hreads := p.reads_reading d ln.chars
    obtain ⟨below, htokens, hbelow⟩ := Progress.read_whole_tokens hln hread
    rcases hreads.split_at_column htokens hzero with ⟨rfl, hu⟩ | ⟨ts, rfl, rfl⟩
    · -- `u` is on the line that both texts have reached
      have hline := (hreads.line_eq hu).1.trans (hagree u rfl).line.symm
      exact ⟨q, after, .refl hcode after, by simp, hfound.read_here hline hzero⟩
    · -- all tokens of the line come before `u`, so both texts go on below it
      obtain ⟨ln', rest', rfl, hln', heq, hfound', hagree'⟩ :=
        Agrees.step hln hbelow hagree hfound
      obtain ⟨q', rest'', hon, htokens', hrest⟩ := ih hfound' hbelow hagree' (hcode.next ln')
      refine ⟨q', rest'', hon.of_next hln', ?_, hrest⟩
      rw [htokens', Progress.next_tokens, heq, List.append_assoc]

end Lexer

end UnitFile
