import UnitFile.Lexer.Tokenize
import UnitFile.Proofs.TokenRun
/-!
# The lexer reads line by line

The lexer reads symbols one at a time and keeps its place in a line in its state.
This file says what it holds when it has read a line from start to end, form by
form of the line grammar (`run_line`), and from it that a whole text is read as
the grammar reads it (`output_run`), also when it is taken up at the start of a
line in the middle (`output_resume`).
-/

namespace UnitFile

open Lexer Text Grammar

namespace Lexer

namespace Machine

variable {d : Dialect} {m : Machine} {kind : Kind} {l : Location}

/-! ## From the start of a line to its end -/

/-- The machine at the start of a line, with or without a value carried into it. -/
structure LineStart (d : Dialect) (carried : Bool) (m : Machine) : Prop where
  kind : m.state.kind = .nothing
  pastIndent : m.state.pastIndent = false
  continueAs : m.state.continueAs = if d.hasEscapes && carried then some .value else none
  carry : m.state.carry = if d.hasIndentedValues && carried then .ready else .closed
  recorded : m.Recorded
  above : ∀ t ∈ m.finished.head?, t.range.stop.line < m.here.line

/-- The machine after the characters of a line that started at `l` with the tokens
`older`, when the line holds what `r` says. -/
structure LineEnd (d : Dialect) (older : List Token) (l : Location) (line : List Char)
    (r : LineReading) (m : Machine) : Prop where
  here : m.here = l.past line
  finished : m.close.finished = r.tokens.reverse ++ older
  forecast : m.forecast = r.forecast
  continuation :
    continuation m.state = if d.hasEscapes && r.carriesOn then some .value else none
  carriesOn : d.hasIndentedValues = true → carriesOn m.state m.here.line = r.carriesOn
  carry : d.hasIndentedValues = false → m.state.carry = .closed

/-- The machine past the indent of a line. -/
structure Indented (d : Dialect) (carried : Bool) (m : Machine) (indent : List Char)
    (n : Machine) : Prop where
  kind : n.state.kind = .nothing
  pastIndent : n.state.pastIndent = false
  here : n.here = m.here.past indent
  finished : n.finished = m.finished
  last : n.state.last = (m.finished.head?.map Token.kind).getD .nothing
  idle : n.state.assignmentOnLine n.here.line = false
  awaits : n.awaitsValue = takesUp d carried indent
  continueAs : n.state.continueAs = if d.hasEscapes && carried then some .value else none
  carry : (d.hasIndentedValues && n.state.carry.isIndented) =
    (d.hasIndentedValues && takesUp d carried indent)
  closed : d.hasIndentedValues = false → n.state.carry = .closed

/-- The last token before a line is no assignment on it. -/
theorem LineStart.not_assignmentOnLine {carried : Bool} (h : LineStart d carried m) :
    m.state.assignmentOnLine m.here.line = false := by
  obtain ⟨hlast, hend⟩ := h.recorded
  have habove := h.above
  unfold State.assignmentOnLine
  cases hhead : m.finished.head? with
  | none =>
    rw [hhead] at hlast
    simp [hlast]
  | some t =>
    rw [hhead] at hend habove
    have hlt : t.range.stop.line < m.here.line := habove t rfl
    have hline : m.state.lastEnd.line = t.range.stop.line := by rw [hend]; rfl
    simp only [Bool.and_eq_false_iff, beq_eq_false_iff_ne]
    exact Or.inr (by omega)

/-- **The indent of a line decides whether it takes up what is carried into it.** -/
theorem LineStart.indented {carried : Bool} {indent : List Char} (h : LineStart d carried m)
    (hi : AllBlank indent) : Indented d carried m indent (m.run d (indent.map .char)) := by
  have hnot := h.not_assignmentOnLine
  have hlast := h.recorded.1
  rw [run_blanks h.kind hi]
  refine ⟨h.kind, h.pastIndent, rfl, rfl, hlast, hnot, ?_, h.continueAs, ?_, ?_⟩
  · have hnot' := hnot
    simp only [State.assignmentOnLine] at hnot'
    simp only [awaitsValue, State.assignmentOnLine, Location.past_line, hnot', h.continueAs,
      h.carry, takesUp]
    cases d <;> cases carried <;> simp [Dialect.hasEscapes, Dialect.hasIndentedValues]
  · simp only [h.carry, takesUp]
    cases d <;> cases carried <;> simp [Dialect.hasEscapes, Dialect.hasIndentedValues]
  · intro hd
    simp [hd, h.carry]

/-! ## The forms of a line, one by one -/

variable {n : Machine} {carried : Bool} {older : List Token}

theorem finished_close_within {body : List Char} (hk : kind.isVisible = true)
    (hne : counted kind body ≠ []) :
    (m.within d kind l body).close.finished = tokenOf kind l (counted kind body) :: m.finished := by
  rw [close_within hk hne]
  rfl

theorem counted_solid {v tail : List Char} (hk : kind ≠ .comment) (hv : Solid v)
    (htail : AllBlank tail) : counted kind (v ++ tail) = v := by
  rw [counted, if_neg hk, rdropWhile_solid hv htail]

/-- A line that ends within a value. -/
theorem lineEnd_value (ts : List Token) {pre v tail : List Char} (hv : Solid v)
    (htail : AllBlank tail) (hcarry : m.state.carry = .closed)
    (hfin : m.finished = ts.reverse ++ older) :
    LineEnd d older l (pre ++ v ++ tail)
      ⟨ts ++ [tokenOf .value (l.past pre) v], runsOn d true (pre ++ v ++ tail), .value⟩
      (m.within d .value (l.past pre) (v ++ tail)) := by
  have hcount : counted .value (v ++ tail) = v := counted_solid (by decide) hv htail
  have hlast : (pre ++ (v ++ tail)).getLast? = (v ++ tail).getLast? :=
    List.getLast?_append_of_ne_nil _ (by simp [hv.ne_nil])
  rw [List.append_assoc]
  refine ⟨by rw [Location.past_append]; rfl, ?_, rfl, ?_, ?_, fun _ => hcarry⟩
  · rw [finished_close_within rfl (by rw [hcount]; exact hv.ne_nil), hcount, hfin]
    simp
  · simp only [continuation, within, runsOn, hlast]
    cases d <;> simp [Dialect.hasEscapes, Kind.isEscapable]
  · intro hd
    cases d <;> simp_all [carriesOn, within, runsOn, Dialect.hasIndentedValues, Dialect.hasEscapes]

/-- A blank line. -/
theorem lineEnd_blank {indent : List Char} (h : LineStart d carried m) (hi : AllBlank indent) :
    LineEnd d m.finished m.here indent
      ⟨[], false, if takesUp d carried indent then .value else .nothing⟩
      (m.run d (indent.map .char)) := by
  have hn := h.indented hi
  generalize m.run d (indent.map .char) = n at hn
  refine ⟨hn.here, ?_, ?_, ?_, ?_, hn.closed⟩
  · simp [close, hn.kind, hn.finished, Kind.isVisible, Machine.idle]
  · have hawaits := hn.awaits
    simp only [awaitsValue, hn.continueAs] at hawaits
    simp only [Machine.forecast, hn.kind, hn.continueAs]
    rw [← hawaits]
    cases hc : d.hasEscapes && carried <;> simp
  · simp [Machine.continuation, hn.kind]
  · intro _
    simp [Machine.carriesOn, hn.kind, hn.idle]

/-- A comment line. -/
theorem lineEnd_comment {indent cs : List Char} {c : Char} (hn : Indented d carried m indent n)
    (hc : d.isCommentSign c = true) :
    LineEnd d m.finished m.here (indent ++ c :: cs)
      ⟨[tokenOf .comment (m.here.past indent) (c :: cs)], takesUp d carried indent, .comment⟩
      (n.run d ((c :: cs).map .char)) := by
  rw [List.map_cons, run_cons, feed_comment hn.kind hn.pastIndent hc, run_within fun _ _ => rfl,
    hn.here, ← hn.finished, List.singleton_append]
  refine ⟨by rw [Location.past_append]; rfl, ?_, rfl, ?_, ?_, fun hd => hn.closed hd⟩
  · exact finished_close_within rfl (by simp [counted])
  · simp only [Machine.continuation, within, hn.continueAs, takesUp]
    cases d <;> simp [Dialect.hasEscapes]
  · intro hd
    have hcarry := hn.carry
    rw [hd] at hcarry
    simpa [Machine.carriesOn, within, hd] using hcarry

/-- Blanks where indentation means nothing only move the place. -/
theorem run_blanks_closed {w : List Char} (hk : m.state.kind = .nothing)
    (hcarry : m.state.carry = .closed) (hw : AllBlank w) :
    m.run d (w.map .char) = { m with here := m.here.past w } := by
  have hsame : (if d.hasIndentedValues then Carry.indent^[w.length] m.state.carry
      else m.state.carry) = m.state.carry := by
    rw [hcarry, Carry.iterate_indent_closed, ite_self]
  rw [run_blanks hk hw, hsame]

/-- What follows an assignment on its line is a value, or blanks. -/
theorem lineEnd_assigned (ts : List Token) {pre cs : List Char} {vs : List Token}
    (hk : m.state.kind = .nothing) (hp : m.state.pastIndent = true)
    (hcont : m.state.continueAs = none) (hcarry : m.state.carry = .closed)
    (hlast : m.state.assignmentOnLine l.line = true) (hhere : m.here = l.past (pre ++ ['=']))
    (hfin : m.finished = ts.reverse ++ older) (h : ReadsValue m.here cs vs) :
    LineEnd d older l (pre ++ '=' :: cs) ⟨ts ++ vs, runsOn d true (pre ++ '=' :: cs), .value⟩
      (m.run d (cs.map .char)) := by
  cases h with
  | none hcs =>
    have hrun : (d.hasEscapes && runsOn d true (pre ++ '=' :: cs)) = false := by
      cases d with
      | systemd => exact beq_eq_false_iff_ne.2 (getLast?_assigned_ne hcs)
      | mkosi => rfl
    rw [run_blanks_closed hk hcarry hcs]
    refine ⟨?_, ?_, ?_, ?_, ?_, fun _ => hcarry⟩
    · simp only [hhere, ← Location.past_append]
      simp
    · simp [close, hk, hfin, Kind.isVisible, Machine.idle]
    · simp [Machine.forecast, hk, hcont, hhere, hlast]
    · simp [Machine.continuation, hk, hrun]
    · intro hd
      cases d <;>
        simp_all [Machine.carriesOn, runsOn, Dialect.hasEscapes, Dialect.hasIndentedValues]
  | @some gap v tail hgap hv htail =>
    obtain ⟨c, v, rfl⟩ := List.exists_cons_of_ne_nil hv.ne_nil
    have hawaits : awaitsValue { m with here := m.here.past gap } = true := by
      simp [awaitsValue, hhere, hlast]
    have hfeed := feed_value (d := d) (m := { m with here := m.here.past gap }) hk hv.head_blank
      (by simp [hp]) (by simp [hcont]) hawaits
    have hplace : m.here.past gap = l.past (pre ++ '=' :: gap) := by
      rw [hhere, ← Location.past_append]
      simp
    have hline : pre ++ '=' :: (gap ++ c :: v ++ tail) =
        pre ++ '=' :: gap ++ (c :: v) ++ tail := by simp
    have hrun : m.run d ((gap ++ c :: v ++ tail).map .char) =
        (begun { m with here := m.here.past gap }).within d .value (l.past (pre ++ '=' :: gap))
          (c :: v ++ tail) := by
      rw [List.append_assoc, List.map_append, run_append, run_blanks_closed hk hcarry hgap,
        List.cons_append, List.map_cons, run_cons, hfeed, run_within fun _ _ => rfl, ← hplace]
      rfl
    rw [hrun, hplace, hline]
    exact lineEnd_value ts hv htail rfl hfin

/-- A line that takes up the value carried into it. -/
theorem lineEnd_taken {indent v tail : List Char} (hn : Indented d carried m indent n)
    (htaken : takesUp d carried indent = true) (hv : Solid v)
    (hc : ∀ c ∈ v.head?, d.isCommentSign c = false) (htail : AllBlank tail) :
    LineEnd d m.finished m.here (indent ++ v ++ tail)
      ⟨[tokenOf .value (m.here.past indent) v], runsOn d true (indent ++ v ++ tail), .value⟩
      (n.run d ((v ++ tail).map .char)) := by
  obtain ⟨c, v, rfl⟩ := List.exists_cons_of_ne_nil hv.ne_nil
  have hcont : n.state.continueAs.getD .value = .value := by
    rw [hn.continueAs]
    split <;> rfl
  rw [List.cons_append, List.map_cons, run_cons,
    feed_value hn.kind hv.head_blank (fun _ => hc c (by simp)) hcont (by rw [hn.awaits, htaken]),
    run_within fun _ _ => rfl, hn.here]
  exact lineEnd_value [] hv htail rfl hn.finished

/-- A line that begins with an assignment. -/
theorem lineEnd_assignment {indent cs : List Char} {vs : List Token}
    (hn : Indented d carried m indent n) (htaken : takesUp d carried indent = false)
    (hl : n.state.last ≠ .assignment)
    (hvs : ReadsValue ((m.here.past indent).past ['=']) cs vs) :
    LineEnd d m.finished m.here (indent ++ '=' :: cs)
      ⟨tokenOf .assignment (m.here.past indent) ['='] :: vs, runsOn d true (indent ++ '=' :: cs),
        .value⟩
      (n.run d (('=' :: cs).map .char)) := by
  rw [List.map_cons, run_cons, feed_assign hn.kind (by rw [hn.awaits, htaken]) hl, hn.here]
  refine lineEnd_assigned [tokenOf .assignment (m.here.past indent) ['=']] rfl rfl rfl rfl ?_ ?_ ?_
    hvs
  · simp [State.assignmentOnLine, emit, State.commit, tokenOf, Machine.idle]
  · exact (Location.past_append _ _ _).symm
  · simp [emit, begun, Machine.idle, hn.finished]

/-- A character behind a section header only moves the place. -/
theorem feed_discarded (hk : m.state.kind = .discarded) (c : Char) :
    m.feed d (.char c) = { m with here := m.here.after c } := by
  simp [feed, step, hk]

/-- So does all that trails it. -/
theorem run_discarded {cs : List Char} (hk : m.state.kind = .discarded) :
    m.run d (cs.map .char) = { m with here := m.here.past cs } := by
  induction cs generalizing m with
  | nil => rfl
  | cons c cs ih =>
    rw [List.map_cons, run_cons, feed_discarded hk,
      ih (m := { m with here := m.here.after c }) hk, Location.past_cons]

/-- A `]` finishes the header under way. -/
theorem feed_closeHeader {body : List Char} :
    (m.within d .header l body).feed d (.char ']') =
      { ((m.within d .header l body).emit (tokenOf .header l (body ++ [']']))) with
        state :=
          { m.state with
            kind := .discarded
            start := l
            contentEnd := l.past (body ++ [']'])
            escapedFor := none
            last := .header
            lastEnd := l.past (body ++ [']']) }
        here := l.past (body ++ [']'])
        content := (body ++ [']']).reverse
        slack := [] } := by
  have hb : isBlank ']' = false := rfl
  have hplace := Location.after_past l body ']'
  have hback := reverse_trimmed body
  have hpos : 0 < byteLength body + ']'.utf8Size := by
    have hsize := Char.utf8Size_pos ']'
    omega
  simp [feed, step, within, takeTrimmed, take, hb, hplace, hback, close, Kind.isVisible, hpos, emit,
    State.commit, Machine.idle, counted, tokenOf, Kind.isEscapable]

/-- A section header with its closing bracket; nothing after it counts. -/
theorem lineEnd_closedHeader {indent name tail : List Char} (hn : Indented d carried m indent n)
    (htaken : takesUp d carried indent = false) (hname : ']' ∉ name) :
    LineEnd d m.finished m.here (indent ++ '[' :: (name ++ [']']) ++ tail)
      ⟨[tokenOf .header (m.here.past indent) ('[' :: (name ++ [']']))], false, .discarded⟩
      (n.run d (('[' :: (name ++ [']']) ++ tail).map .char)) := by
  have hstay := staysIn_header hname
  have hsplit : ('[' :: (name ++ [']']) ++ tail).map Symbol.char =
      .char '[' :: (name.map .char ++ .char ']' :: tail.map .char) := by simp
  rw [hsplit, run_cons, feed_header hn.kind (by rw [hn.awaits, htaken]), run_append,
    run_within hstay, run_cons, feed_closeHeader, run_discarded rfl, hn.here, List.singleton_append,
    List.cons_append, ← hn.finished]
  refine ⟨?_, ?_, rfl, ?_, ?_, fun _ => rfl⟩
  · rw [Location.past_append, Location.past_append]
  · simp [close, Kind.isVisible, Machine.idle, emit, within, begun]
  · simp [Machine.continuation]
  · intro _
    rfl

/-- A section header that is not closed on its line. -/
theorem lineEnd_openHeader {indent name tail : List Char} (hn : Indented d carried m indent n)
    (htaken : takesUp d carried indent = false) (hs : Solid ('[' :: name)) (hname : ']' ∉ name)
    (htail : AllBlank tail) :
    LineEnd d m.finished m.here (indent ++ '[' :: name ++ tail)
      ⟨[tokenOf .header (m.here.past indent) ('[' :: name)], false, .header⟩
      (n.run d (('[' :: name ++ tail).map .char)) := by
  have hstay := staysIn_header (notMem_append_blank rfl hname htail)
  have hcount : counted .header ('[' :: name ++ tail) = '[' :: name :=
    counted_solid (by decide) hs htail
  rw [List.cons_append, List.map_cons, run_cons, feed_header hn.kind (by rw [hn.awaits, htaken]),
    run_within hstay, hn.here, List.singleton_append, ← List.cons_append, ← hn.finished]
  refine ⟨by rw [List.append_assoc, Location.past_append]; rfl, ?_, rfl, ?_, ?_, fun _ => rfl⟩
  · rw [finished_close_within rfl (by rw [hcount]; simp), hcount]
    rfl
  · simp [Machine.continuation, within]
  · intro _
    rfl

/-- The characters of a key up to its assignment. -/
theorem run_key {indent cs tail : List Char} {c : Char} (hn : Indented d carried m indent n)
    (htaken : takesUp d carried indent = false) (hc : d.isCommentSign c = false) (hb : c ≠ '[')
    (ha : c = '=' → n.state.last = .assignment) (hs : Solid (c :: cs)) (he : '=' ∉ cs)
    (htail : AllBlank tail) :
    n.run d ((c :: cs ++ tail).map .char) =
      n.begun.within d .key (m.here.past indent) (c :: cs ++ tail) := by
  have hstay := staysIn_key (notMem_append_blank rfl he htail)
  rw [List.cons_append, List.map_cons, run_cons,
    feed_key hn.kind hs.head_blank hc (by rw [hn.awaits, htaken]) hb ha, run_within hstay, hn.here,
    List.singleton_append]

/-- A key without an assignment. -/
theorem lineEnd_key {indent cs tail : List Char} {c : Char} (hn : Indented d carried m indent n)
    (htaken : takesUp d carried indent = false) (hc : d.isCommentSign c = false) (hb : c ≠ '[')
    (ha : c = '=' → n.state.last = .assignment) (hs : Solid (c :: cs)) (he : '=' ∉ cs)
    (htail : AllBlank tail) :
    LineEnd d m.finished m.here (indent ++ c :: cs ++ tail)
      ⟨[tokenOf .key (m.here.past indent) (c :: cs)], runsOn d false (indent ++ c :: cs ++ tail),
        .key⟩
      (n.run d ((c :: cs ++ tail).map .char)) := by
  have hcount : counted .key (c :: cs ++ tail) = c :: cs := counted_solid (by decide) hs htail
  have hlast : (indent ++ c :: cs ++ tail).getLast? = (c :: cs ++ tail).getLast? := by
    rw [List.append_assoc, List.getLast?_append_of_ne_nil _ (by simp)]
  rw [run_key hn htaken hc hb ha hs he htail, ← hn.finished]
  refine ⟨by rw [List.append_assoc, Location.past_append]; rfl, ?_, rfl, ?_, ?_, fun _ => rfl⟩
  · rw [finished_close_within rfl (by rw [hcount]; simp), hcount]
    rfl
  · simp only [Machine.continuation, within, runsOn, hlast]
    cases d <;> simp [Dialect.hasEscapes, Kind.isEscapable]
  · intro hd
    cases d <;>
      simp_all [Machine.carriesOn, within, runsOn, Dialect.hasIndentedValues, Dialect.hasEscapes]

/-- A key with its assignment. -/
theorem lineEnd_directive {indent cs gap rest : List Char} {c : Char} {vs : List Token}
    (hn : Indented d carried m indent n) (htaken : takesUp d carried indent = false)
    (hc : d.isCommentSign c = false) (hb : c ≠ '[') (ha : c = '=' → n.state.last = .assignment)
    (hs : Solid (c :: cs)) (he : '=' ∉ cs) (hgap : AllBlank gap)
    (hvs : ReadsValue ((m.here.past (indent ++ c :: cs ++ gap)).past ['=']) rest vs) :
    LineEnd d m.finished m.here (indent ++ c :: cs ++ gap ++ '=' :: rest)
      ⟨tokenOf .key (m.here.past indent) (c :: cs) ::
          tokenOf .assignment (m.here.past (indent ++ c :: cs ++ gap)) ['='] :: vs,
        runsOn d true (indent ++ c :: cs ++ gap ++ '=' :: rest), .value⟩
      (n.run d ((c :: cs ++ gap ++ '=' :: rest).map .char)) := by
  have hcount : counted .key (c :: cs ++ gap) = c :: cs := counted_solid (by decide) hs hgap
  have hplace : m.here.past (indent ++ c :: cs ++ gap) =
      (m.here.past indent).past (c :: cs ++ gap) := by
    rw [List.append_assoc, Location.past_append]
  have hfeed : (n.begun.within d .key (m.here.past indent) (c :: cs ++ gap)).feed d (.char '=') =
      { (n.begun.within d .key (m.here.past indent) (c :: cs ++ gap)).close.assign with
        here := (m.here.past (indent ++ c :: cs ++ gap)).past ['='] } := by
    rw [hplace]
    rfl
  rw [List.map_append, run_append, run_key hn htaken hc hb ha hs he hgap, List.map_cons, run_cons,
    hfeed, close_within rfl (by rw [hcount]; simp), hcount]
  refine lineEnd_assigned
    [tokenOf .key (m.here.past indent) (c :: cs),
      tokenOf .assignment (m.here.past (indent ++ c :: cs ++ gap)) ['=']]
    rfl rfl rfl rfl ?_ ?_ ?_ hvs
  · simp [State.assignmentOnLine, assign, emit, State.commit, Machine.idle, within, Location.after]
  · exact (Location.past_append _ _ _).symm
  · simp [assign, emit, Machine.idle, within, begun, hn.finished, tokenOf, Location.past_append,
      Location.past_singleton]

/-! ## Lines one after another -/

/-- **What the machine holds at the end of a line.** The indent is read, and then
each form of the grammar is a case of its own. -/
theorem run_line {line : List Char} {r : LineReading} (h : LineStart d carried m)
    (hr : Reads d carried (m.finished.head?.any (·.kind == .assignment)) m.here line r) :
    LineEnd d m.finished m.here line r (m.run d (line.map .char)) := by
  have hlast : ∀ {indent n}, Indented d carried m indent n →
      (n.state.last = .assignment ↔ m.finished.head?.any (·.kind == .assignment) = true) := by
    intro indent n hn
    rw [hn.last]
    cases m.finished.head? <;> simp
  -- every form but the blank line starts with the indent, read by `LineStart.indented`
  cases hr with
  | blank hi => exact lineEnd_blank h hi
  | comment hi hc =>
    rw [List.map_append, run_append]
    exact lineEnd_comment (h.indented hi) hc
  | value hi htaken hv hc htail =>
    rw [List.append_assoc, List.map_append, run_append, ← List.append_assoc]
    exact lineEnd_taken (h.indented hi) htaken hv hc htail
  | assignment hi htaken ha hts =>
    have hn := h.indented hi
    rw [List.map_append, run_append]
    exact lineEnd_assignment hn htaken (fun hl => by simp [(hlast hn).1 hl] at ha) hts
  | closedHeader hi htaken hname =>
    rw [List.append_assoc, List.map_append, run_append, ← List.append_assoc]
    exact lineEnd_closedHeader (h.indented hi) htaken hname
  | openHeader hi htaken hs hname htail =>
    rw [List.append_assoc, List.map_append, run_append, ← List.append_assoc]
    exact lineEnd_openHeader (h.indented hi) htaken hs hname htail
  | key hi htaken hc hb ha hs he htail =>
    have hn := h.indented hi
    rw [List.append_assoc, List.map_append, run_append, ← List.append_assoc]
    exact lineEnd_key hn htaken hc hb (fun heq => (hlast hn).2 (ha heq)) hs he htail
  | @directive indent cs gap rest c ts hi htaken hc hb ha hs he hgap hts =>
    have hn := h.indented hi
    have hmap : (indent ++ c :: cs ++ gap ++ '=' :: rest).map Symbol.char =
        indent.map .char ++ (c :: cs ++ gap ++ '=' :: rest).map .char := by simp
    rw [hmap, run_append]
    exact lineEnd_directive hn htaken hc hb (fun heq => (hlast hn).2 (ha heq)) hs he hgap hts

/-- A break leads from the end of a line to the start of the next. -/
theorem LineEnd.lineStart {line : List Char} {r : LineReading} (h : LineEnd d older l line r m)
    (hrec : m.Recorded) (hr : ∀ t ∈ r.tokens, t.range.stop.line = l.line)
    (hold : ∀ t ∈ older.head?, t.range.stop.line < l.line) (b : LineBreak) :
    LineStart d r.carriesOn (m.feed d (.lineBreak b)) := by
  have hline : m.close.here.line = l.line := by
    have hhere : m.close.here = m.here := by
      simp only [Machine.close]
      split <;> rfl
    rw [hhere, h.here]
    rfl
  refine ⟨rfl, rfl, h.continuation, ?_, hrec.feed _, ?_⟩
  · have hcarry : (m.feed d (.lineBreak b)).state.carry =
        if d.hasIndentedValues then
          if Machine.carriesOn m.state m.close.here.line then .ready else .closed
        else m.state.carry := rfl
    rw [hcarry, hline]
    cases hd : d.hasIndentedValues with
    | false => simpa using h.carry hd
    | true =>
      have hon := h.carriesOn hd
      rw [h.here, Location.past_line] at hon
      simp [hon]
  · have hfin : (m.feed d (.lineBreak b)).finished = r.tokens.reverse ++ older := h.finished
    have hnext : (m.feed d (.lineBreak b)).here.line = l.line + 1 := by
      change (m.here.nextLine b.width).line = l.line + 1
      rw [h.here]
      rfl
    rw [hfin, hnext]
    intro t ht
    -- the last token is one of this line, or else the one that was last before it
    rw [List.head?_append] at ht
    cases hhead : r.tokens.reverse.head? with
    | none =>
      rw [hhead, Option.none_or] at ht
      have := hold t ht
      omega
    | some u =>
      rw [hhead, Option.some_or, Option.mem_some_iff] at ht
      have hmem : u ∈ r.tokens := List.mem_reverse.1 (List.mem_of_head? hhead)
      rw [← ht, hr u hmem]
      omega

/-- **A line with its break leads to the start of the next line**, with the tokens that the
grammar reads on it. -/
theorem LineStart.next (h : LineStart d carried m) (ln : Line) :
    let r := readLine d carried (m.finished.head?.any (·.kind == .assignment)) m.here ln.chars
    let n := (m.run d (ln.chars.map .char)).feed d (.lineBreak ln.stop)
    LineStart d r.carriesOn n ∧ n.finished = r.tokens.reverse ++ m.finished ∧
      n.here = (m.here.past ln.chars).nextLine ln.stop.width := by
  intro r n
  have hreads := reads_readLine d carried (m.finished.head?.any (·.kind == .assignment)) m.here
    ln.chars
  have hend := run_line h hreads
  refine ⟨?_, hend.finished, ?_⟩
  · exact hend.lineStart (h.recorded.run _) (fun t ht => (hreads.line_eq ht).2) h.above ln.stop
  · rw [← hend.here]
    rfl

/-- **A text is read as the grammar reads it**, from the start of any line. -/
theorem output_run (text : List Char) (h : LineStart d carried m) :
    (m.run d (symbols text)).output =
      Progress.read d ⟨m.finished.reverse, carried, m.here⟩ text := by
  -- over the lines; a break restores `LineStart`, with what the line carries on
  induction text using lines_induction generalizing m carried with
  | last cs hcs =>
    have hend := run_line h (reads_readLine d carried _ m.here cs)
    rw [symbols_of_notMem hcs, Progress.read_of_notMem d _ hcs, output, hend.finished,
      hend.forecast]
    simp [Progress.finish, Progress.output, Progress.reading, endsAssigned]
  | line ln hln rest ih =>
    obtain ⟨hstart, hfin, hhere⟩ := h.next ln
    rw [symbols_whole_append hln, run_append, run_cons, ih hstart, hfin, hhere,
      Progress.read_whole_append d _ hln]
    simp [Progress.next, Progress.below, Progress.reading, endsAssigned]

/-- A text is taken up at the start of a line below the tokens before it. -/
theorem lineStart_resume {tokens : List Token}
    (h : ∀ t ∈ tokens.getLast?, t.range.stop.line < l.line) :
    LineStart d false (resume tokens l) := by
  refine ⟨?_, ?_, ?_, ?_, ?_, ?_⟩
  · cases hlast : tokens.getLast? <;> simp [resume, State.atLineStart, hlast]
  · cases hlast : tokens.getLast? <;> simp [resume, State.atLineStart, hlast]
  · cases hlast : tokens.getLast? <;> simp [resume, State.atLineStart, hlast]
  · cases hlast : tokens.getLast? <;> simp [resume, State.atLineStart, hlast]
  · cases hlast : tokens.getLast? <;>
      simp [Recorded, resume, State.atLineStart, hlast, gapStart]
  · simpa [resume] using h

/-- **A text taken up at the start of a line is read on by the grammar.** -/
theorem output_resume {tokens : List Token} (text : List Char)
    (h : ∀ t ∈ tokens.getLast?, t.range.stop.line < l.line) :
    ((resume tokens l).run d (symbols text)).output =
      Progress.read d ⟨tokens, false, l⟩ text := by
  have hread := output_run text (lineStart_resume (d := d) h)
  rw [hread]
  simp [resume]

/-- **And so is a text from its start.** -/
theorem output_start (d : Dialect) (text : List Char) :
    (run d {} (symbols text)).output = Progress.read d {} text :=
  output_resume (d := d) (l := {}) text (by simp : ∀ t ∈ ([] : List Token).getLast?, _)

end Machine

end Lexer

/-! ## Whole texts -/

/-- **The lexer is the line grammar.** For every text it finds the tokens, and
forecasts what one more character would belong to, as the grammar does line by
line. -/
theorem tokenize_eq_readText (d : Dialect) (text : String) :
    tokenize d text = readText d text :=
  Machine.output_start d text.toList

end UnitFile
