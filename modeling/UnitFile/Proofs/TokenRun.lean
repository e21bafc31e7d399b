import Mathlib.Logic.Function.Iterate
import UnitFile.Lexer.Resume
import UnitFile.Proofs.Layout
/-!
# The lexer within a line

A token under way is described by the characters read since its start
(`Machine.within`): as long as they belong to it, reading on only makes them more
(`run_within`). Between tokens, blanks only move the place (`run_blanks`), and the
first other character decides what begins (`feed_comment`, `feed_value`,
`feed_assign`, `feed_header`, `feed_key`). Throughout, the state knows the last
token finished (`Recorded`).
-/

namespace UnitFile

open Lexer Text Grammar

/-! ## The count of an indent -/

namespace Carry

@[simp] theorem isIndented_closed : closed.isIndented = false := rfl

@[simp] theorem iterate_indent_closed (k : Nat) : indent^[k] closed = closed :=
  Function.iterate_fixed rfl k

/-- One more blank, in numbers: a count that is not zero grows, up to the wrap. -/
theorem toNat_count_indent (carry : Carry) :
    carry.indent.count.toNat =
      if carry.count.toNat = 0 then 0 else (carry.count.toNat + 1) % UInt32.size := by
  unfold indent
  split_ifs with hpos hzero hzero
  · rw [UInt32.lt_iff_toNat_lt, hzero] at hpos
    simp at hpos
  · rw [UInt32.toNat_add]
    rfl
  · exact hzero
  · rw [UInt32.lt_iff_toNat_lt] at hpos
    exact absurd (Nat.pos_of_ne_zero hzero) hpos

/-- **Below a value the count is one more than the blanks**, until it wraps around; then it
stays at zero. -/
theorem toNat_count_iterate_indent (k : Nat) :
    (indent^[k] ready).count.toNat = if k < indentWrap then k + 1 else 0 := by
  unfold indentWrap
  induction k with
  | zero => rfl
  | succ k ih =>
    rw [Function.iterate_succ_apply', toNat_count_indent, ih, UInt32.size]
    split_ifs <;> omega

theorem isIndented_iff (carry : Carry) : carry.isIndented = true ↔ 2 ≤ carry.count.toNat := by
  unfold isIndented
  rw [decide_eq_true_iff, UInt32.le_iff_toNat_le]
  rfl

/-- Blanks below a value are an indent, unless they wrap the count around. -/
@[simp] theorem isIndented_iterate_indent (k : Nat) :
    (indent^[k] ready).isIndented = isIndent k := by
  rw [Bool.eq_iff_iff, isIndented_iff, toNat_count_iterate_indent]
  simp only [isIndent, Bool.and_eq_true, decide_eq_true_eq]
  split_ifs <;> omega

end Carry

namespace Lexer

namespace Machine

variable {d : Dialect} {m : Machine} {kind : Kind} {l : Location}

/-! ## Within a token -/

/-- What counts of the characters of a token under way: all of a comment, and of
any other what comes before the blanks at the end. -/
def counted (kind : Kind) (body : List Char) : List Char :=
  if kind = .comment then body else body.rdropWhile isBlank

/-- The machine within a token of which the characters `body` have been read. -/
def within (d : Dialect) (m : Machine) (kind : Kind) (l : Location) (body : List Char) : Machine :=
  { m with
    state :=
      { m.state with
        kind := kind
        start := l
        contentEnd := l.past (counted kind body)
        escapedFor :=
          if d.hasEscapes && kind.isEscapable && body.getLast? == some '\\' then some .value
          else none }
    here := l.past body
    content := (counted kind body).reverse
    slack := if kind = .comment then [] else (body.rtakeWhile isBlank).reverse }

/-- Whether a character belongs to a token of the given kind under way. -/
def staysIn (kind : Kind) (c : Char) : Bool :=
  match kind with
  | .comment | .value => true
  | .key => c != '='
  | .header => c != ']'
  | _ => false

theorem staysIn_key {cs : List Char} (h : '=' ∉ cs) : ∀ c ∈ cs, staysIn .key c = true := by
  intro c hc
  simpa [staysIn] using fun heq : c = '=' => h (heq ▸ hc)

theorem staysIn_header {cs : List Char} (h : ']' ∉ cs) :
    ∀ c ∈ cs, staysIn .header c = true := by
  intro c hc
  simpa [staysIn] using fun heq : c = ']' => h (heq ▸ hc)

/-- The blanks at the end and what comes before them make up all that was read. -/
theorem reverse_trimmed (body : List Char) :
    (body.rtakeWhile isBlank).reverse ++ (body.rdropWhile isBlank).reverse = body.reverse := by
  rw [← List.reverse_append, List.rdropWhile_append_rtakeWhile]

/-- **One more character makes the token under way longer.** -/
theorem feed_within {body : List Char} {c : Char} (h : staysIn kind c = true) :
    (m.within d kind l body).feed d (.char c) = m.within d kind l (body ++ [c]) := by
  have hplace := Location.after_past l body c
  have hback := reverse_trimmed body
  -- a blank waits, and any other character takes the blanks before it along
  cases kind with
  | comment => simp [feed, step, within, take, counted, hplace, Kind.isEscapable]
  | header =>
    have hc : c ≠ ']' := by simpa [staysIn] using h
    by_cases hb : isBlank c = true
    · simp [feed, step, within, takeTrimmed, counted, hplace, hb, hc, Kind.isEscapable]
    · simp [feed, step, within, takeTrimmed, take, counted, hplace, hb, hc, hback, Kind.isEscapable]
  | key =>
    have hc : c ≠ '=' := by simpa [staysIn] using h
    by_cases hb : isBlank c = true
    · cases d <;>
        simp [feed, step, within, accumulate, takeTrimmed, counted, hplace, hb, hc,
          Kind.isEscapable, Dialect.hasEscapes]
    · cases d <;>
        simp [feed, step, within, accumulate, takeTrimmed, take, counted, hplace, hb, hc, hback,
          Kind.isEscapable, Dialect.hasEscapes]
  | value =>
    by_cases hb : isBlank c = true
    · cases d <;>
        simp [feed, step, within, accumulate, takeTrimmed, counted, hplace, hb,
          Kind.isEscapable, Dialect.hasEscapes]
    · cases d <;>
        simp [feed, step, within, accumulate, takeTrimmed, take, counted, hplace, hb, hback,
          Kind.isEscapable, Dialect.hasEscapes]
  | nothing => simp [staysIn] at h
  | assignment => simp [staysIn] at h
  | discarded => simp [staysIn] at h

/-- **So do any number of them.** -/
theorem run_within {body cs : List Char} (h : ∀ c ∈ cs, staysIn kind c = true) :
    (m.within d kind l body).run d (cs.map .char) = m.within d kind l (body ++ cs) := by
  induction cs generalizing body with
  | nil => simp
  | cons c cs ih =>
    rw [List.map_cons, run_cons, feed_within (h c (by simp)),
      ih fun x hx => h x (List.mem_cons_of_mem _ hx), List.append_assoc, List.singleton_append]

/-- Closing a token under way adds it to the tokens finished. -/
theorem close_within {body : List Char} (hk : kind.isVisible = true)
    (hne : counted kind body ≠ []) :
    (m.within d kind l body).close =
      ((m.within d kind l body).emit (tokenOf kind l (counted kind body))).idle := by
  have hpos : 0 < byteLength (counted kind body) := by
    have hzero : byteLength (counted kind body) ≠ 0 := fun h => hne (byteLength_eq_zero.1 h)
    omega
  have hlt : l.offset < l.offset + byteLength (counted kind body) := by omega
  simp [close, within, hk, tokenOf, hlt]

/-! ## Between tokens -/

/-- Between tokens a character is classified. -/
theorem feed_idle (hk : m.state.kind = .nothing) (c : Char) :
    m.feed d (.char c) = { m.classify d c with here := m.here.after c } := by
  simp [feed, step, hk]

/-- A blank between tokens only moves the place, and raises what indentation means in
a mkosi file. -/
theorem feed_blank {c : Char} (hk : m.state.kind = .nothing) (hb : isBlank c = true) :
    m.feed d (.char c) =
      { m with
        state :=
          { m.state with
            carry := if d.hasIndentedValues then m.state.carry.indent else m.state.carry }
        here := m.here.after c } := by
  cases d <;> simp [feed_idle hk, classify, hb, Dialect.hasIndentedValues]

/-- So do any number of them. -/
theorem run_blanks {w : List Char} (hk : m.state.kind = .nothing) (hw : AllBlank w) :
    m.run d (w.map .char) =
      { m with
        state :=
          { m.state with
            carry := if d.hasIndentedValues then Carry.indent^[w.length] m.state.carry
              else m.state.carry }
        here := m.here.past w } := by
  induction w generalizing m with
  | nil => simp
  | cons c w ih =>
    have hc : isBlank c = true := hw c (by simp)
    rw [List.map_cons, run_cons, feed_blank hk hc,
      ih (by simpa using hk) fun x hx => hw x (by simp [hx])]
    cases d <;> simp [Dialect.hasIndentedValues, Location.past_cons]

/-- The machine once a line that is no comment has begun: what was carried into
the line is spent. -/
def begun (m : Machine) : Machine :=
  { m with state := { m.state with pastIndent := true, continueAs := none, carry := .closed } }

/-- A comment sign after the indent begins a comment. -/
theorem feed_comment {c : Char} (hk : m.state.kind = .nothing)
    (hp : m.state.pastIndent = false) (hc : d.isCommentSign c = true) :
    m.feed d (.char c) =
      ({ m with
          state :=
            { m.state with
              pastIndent := true
              carriedComment := d.hasIndentedValues && m.state.carry.isIndented } }).within
        d .comment m.here [c] := by
  have hb : isBlank c = false := isBlank_of_isCommentSign hc
  simp [feed_idle hk, classify, hb, hp, hc, begin, State.begin, take, within, counted,
    Kind.isEscapable, Location.past_singleton]

/-- Whether the next character that is not blank begins a value. -/
def awaitsValue (m : Machine) : Bool :=
  m.state.continueAs.isSome || m.state.carry.isIndented || m.state.assignmentOnLine m.here.line

/-- A character begins a value where one is awaited. -/
theorem feed_value {c : Char} (hk : m.state.kind = .nothing) (hb : isBlank c = false)
    (hc : m.state.pastIndent = false → d.isCommentSign c = false)
    (hcont : m.state.continueAs.getD .value = .value) (hv : m.awaitsValue = true) :
    m.feed d (.char c) = m.begun.within d .value m.here [c] := by
  have hsign : (!m.state.pastIndent && d.isCommentSign c) = false := by
    cases hp : m.state.pastIndent with
    | true => rfl
    | false => simp [hc hp]
  unfold awaitsValue at hv
  cases d <;>
    simp [feed_idle hk, classify, hb, hsign, hv, hcont, begin, State.begin, accumulate,
      takeTrimmed, take, within, counted, begun, Kind.isEscapable, Dialect.hasEscapes,
      Location.past_singleton, List.rdropWhile_singleton, List.rtakeWhile]

/-- The machine after an assignment at its place. -/
theorem feed_assign (hk : m.state.kind = .nothing) (hv : m.awaitsValue = false)
    (hl : m.state.last ≠ .assignment) :
    m.feed d (.char '=') =
      { (m.begun.emit (tokenOf .assignment m.here ['='])).idle with
        here := m.here.past ['='] } := by
  have hb : isBlank '=' = false := rfl
  have hsign := isCommentSign_equal d
  unfold awaitsValue at hv
  simp [feed_idle hk, classify, hb, hsign, hv, hl, assign, begun, emit, tokenOf,
    Location.past_singleton]

/-- A `[` begins a section header. -/
theorem feed_header (hk : m.state.kind = .nothing) (hv : m.awaitsValue = false) :
    m.feed d (.char '[') = m.begun.within d .header m.here ['['] := by
  have hb : isBlank '[' = false := rfl
  have hsign := isCommentSign_bracket d
  unfold awaitsValue at hv
  simp [feed_idle hk, classify, hb, hsign, hv, begin, State.begin, take, within, counted, begun,
    Kind.isEscapable, Location.past_singleton, List.rdropWhile_singleton, List.rtakeWhile]

/-- Any other character begins a key, and so does an `=` after an assignment. -/
theorem feed_key {c : Char} (hk : m.state.kind = .nothing) (hb : isBlank c = false)
    (hc : d.isCommentSign c = false) (hv : m.awaitsValue = false) (hh : c ≠ '[')
    (ha : c = '=' → m.state.last = .assignment) :
    m.feed d (.char c) = m.begun.within d .key m.here [c] := by
  have hassign : (c = '=' && m.state.last != .assignment) = false := by
    by_cases hceq : c = '='
    · simp [ha hceq]
    · simp [hceq]
  unfold awaitsValue at hv
  cases d <;>
    simp [feed_idle hk, classify, hb, hc, hv, hassign, hh, begin, State.begin, accumulate,
      takeTrimmed, take, within, counted, begun, Kind.isEscapable, Dialect.hasEscapes,
      Location.past_singleton, List.rdropWhile_singleton, List.rtakeWhile]

/-! ## The last token on record -/

/-- The state knows the kind and the stop of the last token finished. -/
def Recorded (m : Machine) : Prop :=
  m.state.last = (m.finished.head?.map Token.kind).getD .nothing ∧
    m.state.lastEnd = gapStart m.finished.head?

theorem recorded_assign : m.assign.Recorded :=
  ⟨rfl, rfl⟩

theorem Recorded.close (h : m.Recorded) : m.close.Recorded := by
  simp only [Machine.close]
  split
  · exact ⟨rfl, rfl⟩
  · exact h

theorem Recorded.accumulate (h : m.Recorded) (c : Char) : (m.accumulate d c).Recorded := by
  simp only [Machine.accumulate, takeTrimmed]
  split <;> split <;> exact h

theorem Recorded.classify (h : m.Recorded) (c : Char) : (m.classify d c).Recorded := by
  simp only [Machine.classify]
  split_ifs
  · exact h
  · exact h
  · exact h
  · exact Recorded.accumulate (by exact h) c
  · exact recorded_assign
  · exact h
  · exact Recorded.accumulate (by exact h) c

/-- **No character breaks the record.** -/
theorem Recorded.step (h : m.Recorded) (c : Char) : (m.step d c).Recorded := by
  unfold Machine.step
  split
  · exact h.classify c
  · exact h.classify c
  · exact h
  · have htrim : (m.takeTrimmed c).Recorded := by
      unfold takeTrimmed
      split <;> exact h
    split_ifs
    · exact htrim.close
    · exact htrim
  · exact h
  · split_ifs
    · exact recorded_assign
    · exact h.accumulate c
  · exact h.accumulate c

theorem Recorded.feed (h : m.Recorded) (s : Symbol) : (m.feed d s).Recorded := by
  cases s with
  | char c => exact h.step c
  | lineBreak b => exact h.close

theorem Recorded.run (h : m.Recorded) (ss : List Symbol) : (m.run d ss).Recorded := by
  induction ss generalizing m with
  | nil => exact h
  | cons s ss ih => exact ih (h.feed s)

end Machine

end Lexer

end UnitFile
