import UnitFile.Proofs.Forecast
/-!
# The states that a run can reach

Not every state is reached. Within a line a run is in one of four phases (`Phase`): in the
indent, within a token, behind an assignment, or behind a section header. A character leads
from phase to phase (`Tracked.char`), and a break leads to the indent of the next line. With
the phase goes what the break before has carried into the line (`Carried`): in a systemd
file nothing but a value, and only below a key or a value that ends in a backslash.

Neither holds alone. What begins behind the indent depends on what is carried, and what a
break carries depends on the token under way. Together they hold along every run
(`Tracked.run`), and `states_orderly` reads off them what the rest of the program takes for
granted.
-/

namespace UnitFile

open Lexer Text Grammar

/-- The characters of the line under way, once one more symbol has been read. -/
def Symbol.onLine (line : List Char) : Symbol → List Char
  | .char c => line ++ [c]
  | .lineBreak _ => []

/-- The characters since the last break. -/
def openLine (ss : List Symbol) : List Char :=
  ss.foldl Symbol.onLine []

namespace Lexer

namespace Machine

variable {d : Dialect} {m n : Machine} {kind : Kind} {l : Location} {line : List Char} {c : Char}

/-! ## The phases of a line -/

/-- How a token comes under way: the character `c`, which is not blank, begins it behind the
characters `pre` of its line. Only a value begins behind anything but the indent, and only a
comment leaves what was carried into the line waiting. -/
structure Begins (kind : Kind) (pre : List Char) (c : Char) (m : Machine) : Prop where
  visible : kind.isVisible = true
  ne_assignment : kind ≠ .assignment
  solid : isBlank c = false
  indent : kind ≠ .value → AllBlank pre
  pastIndent : m.state.pastIndent = true
  spent : kind ≠ .comment → m.state.continueAs = none

/-- **Where a machine can be in its line**, which starts at `l` and of which the characters
`line` have been read. -/
inductive Phase (d : Dialect) (l : Location) : List Char → Machine → Prop
  /-- The line has had nothing but blanks. -/
  | indent {line : List Char} {m : Machine} (hline : AllBlank line) (hhere : m.here = l.past line)
      (hk : m.state.kind = .nothing) (hp : m.state.pastIndent = false) : Phase d l line m
  /-- Within a token that has the characters `c :: cs` so far. -/
  | token {pre cs : List Char} {c : Char} {kind : Kind} (m : Machine) (hm : Begins kind pre c m) :
      Phase d l (pre ++ c :: cs) (m.within d kind (l.past pre) (c :: cs))
  /-- Behind an assignment, where a value has yet to begin. -/
  | assigned {line : List Char} {m : Machine} (hhere : m.here = l.past line)
      (hk : m.state.kind = .nothing) (hp : m.state.pastIndent = true)
      (hcont : m.state.continueAs = none) (hlast : m.state.assignmentOnLine l.line = true) :
      Phase d l line m
  /-- Behind a section header. -/
  | trailing {line : List Char} {m : Machine} (hhere : m.here = l.past line)
      (hk : m.state.kind = .discarded) : Phase d l line m

/-- What the breaks before can have carried into the line. -/
structure Carried (d : Dialect) (m : Machine) : Prop where
  continued : ∀ kind ∈ m.state.continueAs, kind = .value ∧ d = .systemd ∧
    ∃ t, m.finished.find? (·.kind != .comment) = some t ∧ t.kind.isEscapable = true ∧
      t.endsInBackslash = true
  plain : d = .systemd → m.state.carry = .closed ∧ m.state.carriedComment = false

namespace Carried

/-- Only a value can wait. -/
theorem getD_eq (h : Carried d m) : m.state.continueAs.getD .value = .value := by
  cases hcont : m.state.continueAs with
  | none => rfl
  | some kind => exact (h.continued kind hcont).1

/-- Where nothing waits, the tokens finished do not matter. -/
theorem of_none (hcont : n.state.continueAs = none)
    (hplain : d = .systemd → n.state.carry = .closed ∧ n.state.carriedComment = false) :
    Carried d n := by
  refine ⟨?_, hplain⟩
  simp [hcont]

/-- What was carried into a line is spent once it has begun. -/
theorem begun (h : Carried d m) : Carried d m.begun :=
  of_none rfl fun hd => ⟨rfl, (h.plain hd).2⟩

end Carried

/-- The phase of the machine, and what has been carried into its line. -/
structure Tracked (d : Dialect) (l : Location) (line : List Char) (m : Machine) : Prop where
  phase : Phase d l line m
  carried : Carried d m

/-! ## What a character does -/

/-- Within a token, what was carried into the line is as it was. -/
theorem Tracked.of_begins {pre cs : List Char} (hm : Begins kind pre c m) (h : Carried d m) :
    Tracked d l (pre ++ c :: cs) (m.within d kind (l.past pre) (c :: cs)) :=
  ⟨.token m hm, h.continued, h.plain⟩

/-- How a token comes under way that is no comment. -/
theorem begins_begun {pre : List Char} (hvis : kind.isVisible = true) (hne : kind ≠ .assignment)
    (hc : isBlank c = false) (hpre : kind ≠ .value → AllBlank pre) : Begins kind pre c m.begun :=
  ⟨hvis, hne, hc, hpre, rfl, fun _ => rfl⟩

/-- A blank between tokens. -/
theorem Carried.blank (h : Carried d m) (hk : m.state.kind = .nothing) (hb : isBlank c = true) :
    Carried d (m.feed d (.char c)) := by
  rw [feed_blank hk hb]
  refine ⟨h.continued, ?_⟩
  rintro rfl
  exact h.plain rfl

/-- Behind the indent anything can begin: in the order of `classify` a comment, a value, an
assignment, a section header or a key. -/
theorem Tracked.of_indent (h : Carried d m) (hline : AllBlank line) (hhere : m.here = l.past line)
    (hk : m.state.kind = .nothing) (hp : m.state.pastIndent = false) (c : Char) :
    Tracked d l (line ++ [c]) (m.feed d (.char c)) := by
  cases hb : isBlank c with
  | true =>
    refine ⟨?_, h.blank hk hb⟩
    rw [feed_blank hk hb]
    refine .indent (allBlank_append_singleton.2 ⟨hline, hb⟩) ?_ hk hp
    rw [hhere, Location.after_past]
  | false =>
    by_cases hsign : d.isCommentSign c = true
    · rw [feed_comment hk hp hsign, hhere]
      refine .of_begins ⟨rfl, by decide, hb, fun _ => hline, rfl, by simp⟩ ⟨h.continued, ?_⟩
      rintro rfl
      exact ⟨(h.plain rfl).1, rfl⟩
    by_cases hv : m.awaitsValue = true
    · rw [feed_value hk hb (fun _ => by simpa using hsign) h.getD_eq hv, hhere]
      exact .of_begins (begins_begun rfl (by decide) hb (by simp)) h.begun
    rw [Bool.not_eq_true] at hsign hv
    by_cases ha : c = '=' ∧ m.state.last ≠ .assignment
    · obtain ⟨rfl, hl⟩ := ha
      rw [feed_assign hk hv hl]
      refine ⟨.assigned ?_ rfl rfl rfl ?_, .of_none rfl fun hd => ⟨rfl, (h.plain hd).2⟩⟩
      · rw [Location.past_append, ← hhere]
      · simp [State.assignmentOnLine, emit, State.commit, tokenOf, Machine.idle, hhere]
    by_cases hh : c = '['
    · subst hh
      rw [feed_header hk hv, hhere]
      exact .of_begins (begins_begun rfl (by decide) hb fun _ => hline) h.begun
    · rw [feed_key hk hb hsign hv hh fun heq => by_contra fun hl => ha ⟨heq, hl⟩, hhere]
      exact .of_begins (begins_begun rfl (by decide) hb fun _ => hline) h.begun

/-- Behind an assignment the only thing to begin is a value. -/
theorem Tracked.of_assigned (h : Carried d m) (hhere : m.here = l.past line)
    (hk : m.state.kind = .nothing) (hp : m.state.pastIndent = true)
    (hcont : m.state.continueAs = none) (hlast : m.state.assignmentOnLine l.line = true)
    (c : Char) : Tracked d l (line ++ [c]) (m.feed d (.char c)) := by
  cases hb : isBlank c with
  | true =>
    refine ⟨?_, h.blank hk hb⟩
    rw [feed_blank hk hb]
    refine .assigned ?_ hk hp hcont hlast
    rw [hhere, Location.after_past]
  | false =>
    have hv : m.awaitsValue = true := by simp [awaitsValue, hhere, hlast]
    rw [feed_value hk hb (by simp [hp]) h.getD_eq hv, hhere]
    exact .of_begins (begins_begun rfl (by decide) hb (by simp)) h.begun

/-- Blanks at the end do not count, but the first character of a token is none. -/
theorem counted_ne_nil {cs : List Char} (hc : isBlank c = false) : counted kind (c :: cs) ≠ [] := by
  unfold counted
  split
  · simp
  · rw [Ne, List.rdropWhile_eq_nil_iff]
    simp [hc]

/-- A character that a token does not take ends it: an `=` a key, a `]` a section header. -/
theorem Tracked.of_token {pre cs : List Char} (hm : Begins kind pre c m) (h : Carried d m)
    (c' : Char) :
    Tracked d l (pre ++ c :: cs ++ [c'])
      ((m.within d kind (l.past pre) (c :: cs)).feed d (.char c')) := by
  by_cases hstay : staysIn kind c' = true
  · rw [feed_within hstay, List.append_assoc, List.cons_append]
    exact .of_begins hm h
  have hends : kind = .key ∧ c' = '=' ∨ kind = .header ∧ c' = ']' := by
    have hvis := hm.visible
    have hne := hm.ne_assignment
    cases kind <;> simp_all [staysIn, Kind.isVisible]
  have hplace : (l.past pre).past (c :: cs ++ [c']) = l.past (pre ++ c :: cs ++ [c']) := by
    rw [← Location.past_append, List.append_assoc]
  rcases hends with ⟨rfl, rfl⟩ | ⟨rfl, rfl⟩
  · have hfeed : (m.within d .key (l.past pre) (c :: cs)).feed d (.char '=') =
        { (m.within d .key (l.past pre) (c :: cs)).close.assign with
          here := (l.past pre).past (c :: cs ++ ['=']) } := by
      rw [← Location.after_past]
      rfl
    have hspent : m.state.continueAs = none := hm.spent (by decide)
    rw [hfeed, close_within rfl (counted_ne_nil hm.solid)]
    refine ⟨.assigned hplace rfl hm.pastIndent hspent ?_, .of_none hspent h.plain⟩
    simp [State.assignmentOnLine, assign, emit, State.commit, Machine.idle, within, Location.after]
  · rw [feed_closeHeader]
    exact ⟨.trailing hplace rfl, .of_none (hm.spent (by decide)) h.plain⟩

/-- **A character leads from phase to phase.** -/
theorem Tracked.char (h : Tracked d l line m) (c : Char) :
    Tracked d l (line ++ [c]) (m.feed d (.char c)) := by
  obtain ⟨hphase, hm⟩ := h
  cases hphase with
  | indent hline hhere hk hp => exact .of_indent hm hline hhere hk hp c
  | token m hbegins => exact .of_token hbegins ⟨hm.continued, hm.plain⟩ c
  | assigned hhere hk hp hcont hlast => exact .of_assigned hm hhere hk hp hcont hlast c
  | trailing hhere hk =>
    rw [feed_discarded hk]
    refine ⟨.trailing ?_ hk, hm.continued, hm.plain⟩
    rw [hhere, Location.after_past]

/-! ## What a break does -/

/-- A token that is carried over a break ends in the backslash that carries it. -/
theorem endsInBackslash_of_escapedFor {body : List Char} {next : Kind}
    (hk : kind.isEscapable = true)
    (h : (m.within d kind l body).state.escapedFor = some next) :
    next = .value ∧ d = .systemd ∧ (tokenOf kind l (counted kind body)).endsInBackslash = true := by
  have hcomment : kind ≠ .comment := by
    rintro rfl
    simp [Kind.isEscapable] at hk
  simp only [within, Option.ite_none_right_eq_some, Bool.and_eq_true, beq_iff_eq,
    Option.some.injEq] at h
  obtain ⟨⟨⟨hd, -⟩, hlast⟩, rfl⟩ := h
  have hsystemd : d = .systemd := by
    cases d with
    | systemd => rfl
    | mkosi => simp [Dialect.hasEscapes] at hd
  -- a backslash is not blank, so with one at the end all of the body counts
  obtain ⟨front, rfl⟩ := List.getLast?_eq_some_iff.1 hlast
  have hcount : counted kind (front ++ ['\\']) = front ++ ['\\'] := by
    rw [counted, if_neg hcomment, List.rdropWhile_concat_neg _ _ _ (by decide)]
  refine ⟨rfl, hsystemd, ?_⟩
  simp [hcount, Token.endsInBackslash, tokenOf]

/-- **A break carries over what the token under way lets it.** -/
theorem Tracked.carried_lineBreak (h : Tracked d l line m) (b : LineBreak) :
    Carried d (m.feed d (.lineBreak b)) := by
  obtain ⟨hphase, hm⟩ := h
  refine ⟨?_, ?_⟩
  · intro next hnext
    change continuation m.state = some next at hnext
    change _ ∧ _ ∧ ∃ t, m.close.finished.find? _ = some t ∧ _
    cases hphase with
    | indent hline hhere hk hp => simp [continuation, hk] at hnext
    | @token pre cs c kind m hbegins =>
      rw [finished_close_within hbegins.visible (counted_ne_nil hbegins.solid)]
      cases kind with
      | comment =>
        -- a comment is passed over, and what was carried before still is
        obtain ⟨hvalue, hd, t, hfind, ht⟩ := hm.continued next hnext
        refine ⟨hvalue, hd, t, ?_, ht⟩
        rw [List.find?_cons_of_neg (by simp [tokenOf])]
        exact hfind
      | key =>
        obtain ⟨hvalue, hd, hends⟩ := endsInBackslash_of_escapedFor rfl hnext
        exact ⟨hvalue, hd, _, by simp [tokenOf], rfl, hends⟩
      | value =>
        obtain ⟨hvalue, hd, hends⟩ := endsInBackslash_of_escapedFor rfl hnext
        exact ⟨hvalue, hd, _, by simp [tokenOf], rfl, hends⟩
      | header => simp [continuation, within] at hnext
      | assignment => exact absurd rfl hbegins.ne_assignment
      | nothing => exact absurd hbegins.visible (by decide)
      | discarded => exact absurd hbegins.visible (by decide)
    | assigned hhere hk hp hcont hlast => simp [continuation, hk] at hnext
    | trailing hhere hk => simp [continuation, hk] at hnext
  · rintro rfl
    exact ⟨(hm.plain rfl).1, rfl⟩

/-! ## Runs -/

theorem Tracked.feed (h : Tracked d l line m) (s : Symbol) :
    ∃ l', Tracked d l' (s.onLine line) (m.feed d s) := by
  cases s with
  | char c => exact ⟨l, h.char c⟩
  | lineBreak b =>
    exact ⟨m.here.nextLine b.width, .indent allBlank_nil rfl rfl rfl, h.carried_lineBreak b⟩

/-- **Along every run the machine is in a phase of its line.** -/
theorem Tracked.run (h : Tracked d l line m) (ss : List Symbol) :
    ∃ l', Tracked d l' (ss.foldl Symbol.onLine line) (m.run d ss) := by
  induction ss generalizing l line m with
  | nil => exact ⟨l, h⟩
  | cons s ss ih =>
    obtain ⟨l', hs⟩ := h.feed s
    exact ih hs

theorem tracked_start (d : Dialect) : Tracked d {} [] {} :=
  ⟨.indent allBlank_nil rfl rfl rfl, .of_none rfl fun _ => ⟨rfl, rfl⟩⟩

theorem recorded_start : Recorded {} :=
  ⟨rfl, rfl⟩

/-! ## What a phase says -/

/-- A token is under way in the one phase that has one. -/
theorem Phase.exists_within (h : Phase d l line m) (hk : m.state.kind.isVisible = true) :
    ∃ base kind pre c cs, line = pre ++ c :: cs ∧
      m = Machine.within d base kind (l.past pre) (c :: cs) ∧ Begins kind pre c base := by
  cases h with
  | indent hline hhere hnothing hp => simp [hnothing, Kind.isVisible] at hk
  | @token pre cs c kind base hbegins => exact ⟨base, kind, pre, c, cs, rfl, rfl, hbegins⟩
  | assigned hhere hnothing hp hcont hlast => simp [hnothing, Kind.isVisible] at hk
  | trailing hhere hdiscarded => simp [hdiscarded, Kind.isVisible] at hk

/-- It stands on the line under way. -/
theorem Phase.line_eq (h : Phase d l line m) (hk : m.state.kind.isVisible = true) :
    m.state.start.line = m.here.line ∧ m.state.contentEnd.line = m.here.line := by
  obtain ⟨base, kind, pre, c, cs, rfl, rfl, -⟩ := h.exists_within hk
  exact ⟨rfl, rfl⟩

/-- If it is no value, it began at the first character that is not blank. -/
theorem Phase.first (h : Phase d l line m) (hk : m.state.kind.isVisible = true)
    (hv : m.state.kind ≠ .value) :
    ∃ indent c cs, line = indent ++ c :: cs ∧ AllBlank indent ∧ isBlank c = false ∧
      m.here = m.state.start.past (c :: cs) := by
  obtain ⟨base, kind, pre, c, cs, rfl, rfl, hbegins⟩ := h.exists_within hk
  exact ⟨pre, c, cs, rfl, hbegins.indent hv, hbegins.solid, rfl⟩

/-- Between tokens, past the indent, the last token finished is an assignment on the line. -/
theorem Phase.last_assignment (h : Phase d l line m) (hr : m.Recorded)
    (hk : m.state.kind = .nothing) (hp : m.state.pastIndent = true) :
    ∃ t ∈ m.finished.head?, t.kind = .assignment ∧ t.range.stop.line = m.here.line := by
  cases h with
  | indent hline hhere hnothing hindent => simp [hindent] at hp
  | token m hbegins =>
    obtain rfl : _ = Kind.nothing := hk
    exact absurd hbegins.visible (by decide)
  | assigned hhere hnothing hpast hcont hlast =>
    obtain ⟨hkind, hstop⟩ := hr
    simp only [State.assignmentOnLine, Bool.and_eq_true, beq_iff_eq] at hlast
    cases hhead : m.finished.head? with
    | none => simp [hhead, hlast.1] at hkind
    | some t =>
      rw [hhead] at hkind hstop
      refine ⟨t, rfl, hkind.symm.trans hlast.1, ?_⟩
      rw [hhere, Location.past_line, ← hlast.2, hstop]
      rfl
  | trailing hhere hdiscarded => simp [hdiscarded] at hk

/-- **What every state of a run keeps to**, when the characters `line` of the line under way
have been read. -/
structure Orderly (d : Dialect) (line : List Char) (m : Machine) : Prop extends Carried d m where
  kind : m.state.kind ≠ .assignment
  /-- A token under way has characters, and all of it is on the line under way. -/
  content : m.state.kind.isVisible = true →
    m.state.start.offset < m.state.contentEnd.offset ∧
      m.state.start.line = m.here.line ∧ m.state.contentEnd.line = m.here.line
  /-- So wherever it is closed, it is added to the tokens: by a break, by the end of the text,
  and by the `=` behind a key. -/
  close : m.state.kind.isVisible = true → m.close.finished = m.draft.token :: m.finished
  /-- A `]` joins the section header before it closes it. -/
  bracket : m.state.kind = .header →
    (m.takeTrimmed ']').close.finished = (m.draft.take ']' m.here).token :: m.finished
  /-- The first character that is not blank begins what only the indent can come before. -/
  first : m.state.kind = .comment ∨ m.state.kind = .header ∨ m.state.kind = .key →
    ∃ indent c cs, line = indent ++ c :: cs ∧ AllBlank indent ∧ isBlank c = false ∧
      m.here = m.state.start.past (c :: cs)
  /-- Only an assignment leaves nothing under way behind the indent. -/
  assigned : m.state.kind = .nothing → m.state.pastIndent = true →
    ∃ t ∈ m.finished.head?, t.kind = .assignment ∧ t.range.stop.line = m.here.line

theorem Tracked.orderly (h : Tracked d l line m) (hs : Steady m) (hr : m.Recorded) :
    Orderly d line m where
  toCarried := h.carried
  kind := hs.kind
  content hk := ⟨(hs.content hk).1, h.phase.line_eq hk⟩
  close := close_finished hs
  bracket := close_take_bracket hs
  first hk := by
    refine h.phase.first ?_ ?_
    · rcases hk with hk | hk | hk <;> simp [hk, Kind.isVisible]
    · rcases hk with hk | hk | hk <;> simp [hk]
  assigned := h.phase.last_assignment hr

end Machine

end Lexer

/-! ## Whole texts -/

/-- **Every state that a text leads through is an orderly one**, after any number of its
characters and line breaks. -/
theorem states_orderly (d : Dialect) (text : String) (n : Nat) :
    Machine.Orderly d (openLine ((symbols text.toList).take n))
      (Machine.run d {} ((symbols text.toList).take n)) := by
  obtain ⟨l, h⟩ := (Machine.tracked_start d).run ((symbols text.toList).take n)
  exact h.orderly (Machine.steady_start.run _) (Machine.recorded_start.run _)

/-- The `=` behind a key leaves the mark of the backslash before it, and no break takes that
up. -/
example :
    let m := Machine.run .systemd {} (symbols "K\\=".toList)
    m.state.escapedFor = some .value ∧ m.state.kind = .nothing ∧
      (m.feed .systemd (.lineBreak .lf)).state.continueAs = none := by
  decide

end UnitFile
