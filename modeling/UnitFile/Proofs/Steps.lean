import UnitFile.Lexer.Tokenize
import UnitFile.Proofs.TokenRun
/-!
# What one symbol does to the tokens

The lexer keeps the tokens finished and the one under way, its draft. A character
can do six things to them (`Change`): it is skipped, it begins a token, it is an
assignment, it waits as a blank, it makes the draft longer, or it closes a section
header. A line break finishes the draft. `feed_change` and `feed_break` say so once,
and all that is said about runs is read off them.

Seen from outside, a symbol leaves the tokens as they are, makes the last one
longer, or adds one that starts right there (`TokenStep`). So every run only adds to
the tokens before it (`outgrows_run`), and every new token was begun at its start
(`begun_of_run`).
-/

namespace UnitFile

open Lexer Text Grammar

/-- A token that has grown out of another one: it has the kind and the start of the
other one, and its text begins with the other's. -/
structure Token.Extends (t u : Token) : Prop where
  kind : u.kind = t.kind
  start : u.range.start = t.range.start
  text : t.text.toList <+: u.text.toList

namespace Token.Extends

theorem refl (t : Token) : t.Extends t :=
  ⟨rfl, rfl, List.prefix_refl _⟩

theorem trans {t u v : Token} (h : t.Extends u) (h' : u.Extends v) : t.Extends v :=
  ⟨h'.kind.trans h.kind, h'.start.trans h.start, h.text.trans h'.text⟩

end Token.Extends

namespace Lexer

/-! ## The token under way -/

/-- The token under way: its kind, its ends, its characters and the blanks behind
them that may still join it, last ones first. -/
structure Draft where
  kind : Kind
  start : Location
  stop : Location
  content : List Char
  slack : List Char

namespace Draft

/-- The draft with one more character, which the blanks before it join. -/
def take (t : Draft) (c : Char) (l : Location) : Draft :=
  { t with stop := l.after c, content := c :: (t.slack ++ t.content), slack := [] }

/-- The draft with one more blank that waits. -/
def wait (t : Draft) (c : Char) : Draft :=
  { t with slack := c :: t.slack }

/-- The token that a draft would be if it ended here. -/
def token (t : Draft) : Token :=
  ⟨t.kind, ⟨t.start, t.stop⟩, String.ofList t.content.reverse⟩

@[simp] theorem wait_token (t : Draft) (c : Char) : (t.wait c).token = t.token := rfl

/-- One more character makes the token longer. -/
theorem extends_take (t : Draft) (c : Char) (l : Location) :
    t.token.Extends (t.take c l).token where
  kind := rfl
  start := rfl
  text := by simp [token, take]

end Draft

namespace Machine

variable {d : Dialect} {m n : Machine} {c : Char}

/-- The token under way in the machine. -/
def draft (m : Machine) : Draft :=
  ⟨m.state.kind, m.state.start, m.state.contentEnd, m.content, m.slack⟩

/-- The tokens found so far, the one under way among them. -/
def tokens (m : Machine) : List Token :=
  m.close.finished.reverse

/-- Only values are carried over a line break. -/
def CarriesValues (s : State) : Prop :=
  s.escapedFor.getD .value = .value ∧ s.continueAs.getD .value = .value

/-- What every run keeps to. A token under way has characters and ends at or before
the place reached, no assignment is under way, and only values are carried over a
line break. -/
structure Steady (m : Machine) : Prop where
  kind : m.state.kind ≠ .assignment
  content : m.state.kind.isVisible = true →
    m.state.start.offset < m.state.contentEnd.offset ∧
      m.state.contentEnd.offset ≤ m.here.offset
  carried : CarriesValues m.state

@[simp] theorem close_here (m : Machine) : m.close.here = m.here := by
  simp only [close]
  split <;> rfl

/-- Closing the token under way finishes it. -/
theorem close_finished (h : Steady m) (hk : m.state.kind.isVisible = true) :
    m.close.finished = m.draft.token :: m.finished := by
  simp only [close, hk, (h.content hk).1, decide_true, Bool.and_self, if_true]
  rfl

/-- Without one there is nothing to close. -/
theorem close_finished_of_hidden (hk : m.state.kind.isVisible = false) :
    m.close.finished = m.finished := by
  simp only [close, hk, Bool.false_and, Bool.false_eq_true, if_false]
  rfl

theorem tokens_visible (h : Steady m) (hk : m.state.kind.isVisible = true) :
    m.tokens = m.finished.reverse ++ [m.draft.token] := by
  rw [tokens, close_finished h hk, List.reverse_cons]

/-- With a given draft under way, its token is the last one. -/
theorem tokens_of_draft {t : Draft} (h : Steady m) (ht : m.draft = t)
    (hk : t.kind.isVisible = true) : m.tokens = m.finished.reverse ++ [t.token] := by
  subst ht
  exact tokens_visible h hk

theorem tokens_hidden (hk : m.state.kind.isVisible = false) : m.tokens = m.finished.reverse := by
  rw [tokens, close_finished_of_hidden hk]

/-- The finished tokens come first. -/
theorem finished_prefix_tokens (h : Steady m) : m.finished.reverse <+: m.tokens := by
  cases hk : m.state.kind.isVisible with
  | true => exact ⟨[m.draft.token], (tokens_visible h hk).symm⟩
  | false => exact ⟨[], by rw [tokens_hidden hk, List.append_nil]⟩

/-- Between tokens the forecast is a value or nothing. -/
theorem forecast_idle (h : Steady m) (hk : m.state.kind = .nothing) :
    m.forecast = if m.awaitsValue then .value else .nothing := by
  have hcont := h.carried.2
  unfold forecast awaitsValue
  rw [hk]
  cases hc : m.state.continueAs with
  | none => simp
  | some kind =>
    rw [hc] at hcont
    simpa using hcont

/-- Within a token the forecast is its kind. -/
theorem forecast_visible (h : Steady m) (hk : m.state.kind.isVisible = true) :
    m.forecast = m.state.kind := by
  have hne := h.kind
  unfold forecast
  cases hkind : m.state.kind <;> simp_all [Kind.isVisible]

/-! ## The parts of a step -/

theorem draft_accumulate (hb : isBlank c = false) :
    (m.accumulate d c).draft = m.draft.take c m.here := by
  cases d <;> simp [accumulate, takeTrimmed, hb, Dialect.hasEscapes] <;> rfl

theorem draft_accumulate_blank (hb : isBlank c = true) :
    (m.accumulate d c).draft = m.draft.wait c := by
  cases d <;> simp [accumulate, takeTrimmed, hb, Dialect.hasEscapes] <;> rfl

@[simp] theorem finished_accumulate : (m.accumulate d c).finished = m.finished := by
  unfold accumulate takeTrimmed
  split <;> split <;> rfl

/-! ## What one character does -/

/-- **What one character does.** -/
inductive Change (m : Machine) (c : Char) (n : Machine) : Prop
  /-- A blank between tokens, or a character that trails a closed header. -/
  | skip (hk : m.state.kind = .nothing ∧ isBlank c = true ∨ m.state.kind = .discarded)
      (hkind : n.state.kind = m.state.kind) (hfin : n.finished = m.finished)
  /-- The first character of a token. A value begins where the forecast is a value,
  and a key where it is nothing. -/
  | begin (kind : Kind) (hk : m.state.kind = .nothing) (hvis : kind.isVisible = true)
      (hne : kind ≠ .assignment) (hb : isBlank c = false) (hfin : n.finished = m.finished)
      (hdraft : n.draft = ⟨kind, m.here, m.here.after c, [c], []⟩)
      (hvalue : kind = .value → m.forecast = .value) (hkey : kind = .key → m.forecast = .nothing)
  /-- An assignment, between tokens or at the end of a key. -/
  | assign (hk : m.state.kind = .nothing ∨ m.state.kind = .key) (hc : c = '=')
      (hfin : n.finished = tokenOf .assignment m.here ['='] :: m.close.finished)
      (hkind : n.state.kind = .nothing)
  /-- A blank behind the characters of a token. -/
  | wait (hk : m.state.kind.isVisible = true) (hb : isBlank c = true)
      (hfin : n.finished = m.finished) (hdraft : n.draft = m.draft.wait c)
  /-- One more character of a token. -/
  | take (hk : m.state.kind.isVisible = true) (hfin : n.finished = m.finished)
      (hdraft : n.draft = m.draft.take c m.here)
  /-- The closing bracket of a section header. -/
  | close (hk : m.state.kind = .header) (hc : c = ']')
      (hfin : n.finished = (m.draft.take c m.here).token :: m.finished)
      (hkind : n.state.kind = .discarded)

/-- Nothing is under way where a character is skipped. -/
theorem hidden_of_skip
    (hk : m.state.kind = .nothing ∧ isBlank c = true ∨ m.state.kind = .discarded) :
    m.state.kind.isVisible = false := by
  rcases hk with ⟨hk, -⟩ | hk
  · rw [hk]
    rfl
  · rw [hk]
    rfl

/-- The first character of a key or a value begins it. -/
theorem draft_begin_accumulate (kind : Kind) (hb : isBlank c = false) :
    ((m.begin kind).accumulate d c).draft = ⟨kind, m.here, m.here.after c, [c], []⟩ := by
  rw [draft_accumulate hb]
  rfl

/-- Between tokens a character is skipped, begins a token, or is an assignment. -/
theorem classify_change (h : Steady m) (hk : m.state.kind = .nothing) (c : Char) :
    Change m c (m.classify d c) := by
  have hidle := forecast_idle h hk
  have hcont := h.carried.2
  have hclose : m.close.finished = m.finished := close_finished_of_hidden (by rw [hk]; rfl)
  unfold awaitsValue at hidle
  simp only [classify]
  -- in the order of `classify`: blanks, comment, value, assignment, header, key
  split_ifs with hb hd hsign hawaits heq hh
  · exact .skip (.inl ⟨hk, hb⟩) rfl rfl
  · exact .skip (.inl ⟨hk, hb⟩) rfl rfl
  · exact .begin .comment hk rfl (by decide) (by simpa using hb) rfl rfl
      (by simp) (by simp)
  · rw [hcont]
    exact .begin .value hk rfl (by decide) (by simpa using hb) (by simp; rfl)
      (draft_begin_accumulate _ (by simpa using hb)) (fun _ => by simpa [hawaits] using hidle)
      (by simp)
  · obtain ⟨rfl, -⟩ : c = '=' ∧ _ := by simpa using heq
    exact .assign (.inl hk) rfl (by rw [hclose]; rfl) rfl
  · exact .begin .header hk rfl (by decide) (by simpa using hb) rfl rfl
      (by simp) (by simp)
  · exact .begin .key hk rfl (by decide) (by simpa using hb) (by simp; rfl)
      (draft_begin_accumulate _ (by simpa using hb)) (by simp)
      (fun _ => by simpa [hawaits] using hidle)

/-- What a change says does not depend on the place reached. -/
theorem Change.moved (h : Change m c n) (l : Location) : Change m c { n with here := l } := by
  cases h with
  | skip hk hkind hfin => exact .skip hk hkind hfin
  | begin kind hk hvis hne hb hfin hdraft hvalue hkey =>
    exact .begin kind hk hvis hne hb hfin hdraft hvalue hkey
  | assign hk hc hfin hkind => exact .assign hk hc hfin hkind
  | wait hk hb hfin hdraft => exact .wait hk hb hfin hdraft
  | take hk hfin hdraft => exact .take hk hfin hdraft
  | close hk hc hfin hkind => exact .close hk hc hfin hkind

/-- A character of a key or a value waits, or makes it longer. -/
theorem accumulate_change (hk : m.state.kind.isVisible = true) (c : Char) :
    Change m c (m.accumulate d c) := by
  cases hb : isBlank c with
  | true => exact .wait hk hb finished_accumulate (draft_accumulate_blank hb)
  | false => exact .take hk finished_accumulate (draft_accumulate hb)

/-- A `]` finishes a section header, and is part of it. -/
theorem close_take_bracket (h : Steady m) (hk : m.state.kind = .header) :
    (m.takeTrimmed ']').close.finished = (m.draft.take ']' m.here).token :: m.finished := by
  have hlt : m.state.start.offset < (m.here.after ']').offset := by
    have hcontent := h.content (by rw [hk]; rfl)
    simp only [Location.after]
    omega
  have hb : isBlank ']' = false := rfl
  simp [takeTrimmed, hb, close, take, hk, Kind.isVisible, hlt, emit, Machine.idle, Draft.token,
    Draft.take, draft]

/-- A character of a section header waits, makes it longer, or closes it. -/
theorem header_change (h : Steady m) (hk : m.state.kind = .header) (c : Char) :
    Change m c (m.step d c) := by
  have hvis : m.state.kind.isVisible = true := by rw [hk]; rfl
  unfold step
  rw [hk]
  by_cases hc : c = ']'
  · subst hc
    simp only [if_true]
    exact .close hk rfl (close_take_bracket h hk) rfl
  · cases hb : isBlank c with
    | true =>
      simp only [takeTrimmed, hb, hc, if_true, if_false]
      exact .wait hvis hb rfl rfl
    | false =>
      simp only [takeTrimmed, hb, hc, Bool.false_eq_true, if_false]
      exact .take hvis rfl rfl

/-- **Every character does one of the six things.** -/
theorem feed_change (h : Steady m) (c : Char) : Change m c (m.feed d (.char c)) := by
  refine Change.moved ?_ _
  cases hk : m.state.kind with
  | nothing =>
    have hstep : m.step d c = m.classify d c := by simp [step, hk]
    rw [hstep]
    exact classify_change h hk c
  | assignment => exact absurd hk h.kind
  | comment =>
    have hstep : m.step d c = m.take c := by simp [step, hk]
    rw [hstep]
    exact .take (by rw [hk]; rfl) rfl rfl
  | header => exact header_change h hk c
  | discarded =>
    have hstep : m.step d c = m := by simp [step, hk]
    rw [hstep]
    exact .skip (.inr hk) rfl rfl
  | key =>
    by_cases hc : c = '='
    · have hstep : m.step d c = m.close.assign := by simp [step, hk, hc]
      rw [hstep]
      have hfin : m.close.assign.finished =
          tokenOf .assignment m.close.here ['='] :: m.close.finished := rfl
      rw [close_here] at hfin
      exact .assign (.inr hk) hc hfin rfl
    · have hstep : m.step d c = m.accumulate d c := by simp [step, hk, hc]
      rw [hstep]
      exact accumulate_change (by rw [hk]; rfl) c
  | value =>
    have hstep : m.step d c = m.accumulate d c := by simp [step, hk]
    rw [hstep]
    exact accumulate_change (by rw [hk]; rfl) c

/-! ## What every run keeps to -/

theorem carriesValues_close (h : CarriesValues m.state) : CarriesValues m.close.state := by
  simp only [Machine.close]
  split <;> exact h

theorem carriesValues_accumulate (h : CarriesValues m.state) :
    CarriesValues (m.accumulate d c).state := by
  have htrim : CarriesValues (m.takeTrimmed c).state := by
    unfold takeTrimmed
    split <;> exact h
  simp only [accumulate]
  split_ifs
  · exact ⟨rfl, htrim.2⟩
  · exact ⟨rfl, htrim.2⟩
  · exact htrim

theorem carriesValues_step (h : CarriesValues m.state) (c : Char) :
    CarriesValues (m.step d c).state := by
  unfold step
  split
  case h_1 | h_2 =>
    simp only [classify]
    split_ifs
    · exact h
    · exact h
    · exact ⟨rfl, h.2⟩
    · exact carriesValues_accumulate ⟨rfl, rfl⟩
    · exact ⟨h.1, rfl⟩
    · exact ⟨rfl, rfl⟩
    · exact carriesValues_accumulate ⟨rfl, rfl⟩
  case h_3 => exact h
  case h_4 =>
    have htrim : CarriesValues (m.takeTrimmed c).state := by
      unfold takeTrimmed
      split <;> exact h
    dsimp only
    split_ifs
    · exact carriesValues_close htrim
    · exact htrim
  case h_5 => exact h
  case h_6 =>
    split_ifs
    · exact carriesValues_close h
    · exact carriesValues_accumulate h
  case h_7 => exact carriesValues_accumulate h

theorem carriesValues_endLine (h : CarriesValues m.state) :
    CarriesValues (m.endLine d).state := by
  refine ⟨rfl, ?_⟩
  change (continuation m.state).getD .value = .value
  unfold continuation
  split
  · exact h.1
  · exact h.1
  · exact h.2
  · rfl

theorem Steady.of_hidden (hk : m.state.kind.isVisible = false) (hc : CarriesValues m.state) :
    Steady m := by
  refine ⟨fun heq => ?_, fun hvis => ?_, hc⟩
  · rw [heq] at hk
    contradiction
  · rw [hk] at hvis
    contradiction

theorem Steady.of_draft {t : Draft} (ht : m.draft = t) (hne : t.kind ≠ .assignment)
    (hlt : t.start.offset < t.stop.offset) (hle : t.stop.offset ≤ m.here.offset)
    (hc : CarriesValues m.state) : Steady m := by
  subst ht
  exact ⟨hne, fun _ => ⟨hlt, hle⟩, hc⟩

theorem after_offset (l : Location) (c : Char) :
    (l.after c).offset = l.offset + c.utf8Size := rfl

/-- No character breaks it. -/
theorem Steady.char (h : Steady m) (c : Char) : Steady (m.feed d (.char c)) := by
  have hcarried : CarriesValues (m.feed d (.char c)).state := carriesValues_step h.carried c
  have hhere : (m.feed d (.char c)).here = m.here.after c := rfl
  have hafter := after_offset m.here c
  have hpos := Char.utf8Size_pos c
  cases feed_change (d := d) h c with
  | skip hk hkind hfin =>
    exact .of_hidden (by rw [hkind, hidden_of_skip hk]) hcarried
  | begin kind hk hvis hne hb hfin hdraft hvalue hkey =>
    refine .of_draft hdraft hne ?_ ?_ hcarried
    · show m.here.offset < (m.here.after c).offset
      omega
    · rw [hhere]
  | assign hk hc hfin hkind => exact .of_hidden (by rw [hkind]; rfl) hcarried
  | wait hk hb hfin hdraft =>
    have hcontent := h.content hk
    refine .of_draft hdraft h.kind hcontent.1 ?_ hcarried
    show m.state.contentEnd.offset ≤ (m.here.after c).offset
    omega
  | take hk hfin hdraft =>
    have hcontent := h.content hk
    refine .of_draft hdraft h.kind ?_ ?_ hcarried
    · show m.state.start.offset < (m.here.after c).offset
      omega
    · rw [hhere]
      exact Nat.le_refl _
  | close hk hc hfin hkind => exact .of_hidden (by rw [hkind]; rfl) hcarried

/-- A line break finishes the token under way. -/
theorem feed_break (m : Machine) (b : LineBreak) :
    (m.feed d (.lineBreak b)).finished = m.close.finished ∧
      (m.feed d (.lineBreak b)).state.kind = .nothing :=
  ⟨rfl, rfl⟩

theorem Steady.feed (h : Steady m) (s : Symbol) : Steady (m.feed d s) := by
  cases s with
  | char c => exact h.char c
  | lineBreak b => exact .of_hidden rfl (carriesValues_endLine h.carried)

/-- **And so no run does.** -/
theorem Steady.run (h : Steady m) (ss : List Symbol) : Steady (m.run d ss) := by
  induction ss generalizing m with
  | nil => exact h
  | cons s ss ih => exact ih (h.feed s)

theorem steady_start : Steady {} :=
  .of_hidden rfl ⟨rfl, rfl⟩

/-- A symbol leads as many bytes on as it has. -/
theorem here_feed (m : Machine) (s : Symbol) :
    (m.feed d s).here.offset = m.here.offset + byteLength s.chars := by
  cases s with
  | char c => rfl
  | lineBreak b =>
    show m.here.offset + b.width = m.here.offset + byteLength b.chars
    rw [LineBreak.byteLength_chars]

theorem here_lt_feed (m : Machine) (s : Symbol) : m.here.offset < (m.feed d s).here.offset := by
  have hne : byteLength s.chars ≠ 0 := by
    intro hzero
    have hnil := byteLength_eq_zero.1 hzero
    rcases s with c | b
    · simp [Symbol.chars] at hnil
    · cases b <;> simp [Symbol.chars, LineBreak.chars] at hnil
  rw [here_feed]
  omega

/-- So does a run, and no symbol has no byte. -/
theorem here_run (m : Machine) (ss : List Symbol) :
    (m.run d ss).here.offset = m.here.offset + byteLength (ss.flatMap Symbol.chars) ∧
      m.here.offset + ss.length ≤ (m.run d ss).here.offset := by
  induction ss generalizing m with
  | nil => exact ⟨rfl, Nat.le_refl _⟩
  | cons s ss ih =>
    obtain ⟨hoffset, hle⟩ := ih (m.feed d s)
    have hfeed := here_feed (d := d) m s
    have hlt := here_lt_feed (d := d) m s
    rw [run_cons, List.length_cons, List.flatMap_cons, byteLength_append]
    omega

/-- The place reached after a text is as many bytes on as the text has. -/
theorem here_run_symbols (m : Machine) (cs : List Char) :
    (m.run d (symbols cs)).here.offset = m.here.offset + byteLength cs := by
  rw [(here_run m _).1, flatMap_chars_symbols]

/-! ## What one symbol does, seen from outside -/

/-- **What one symbol does to the tokens**: nothing, or it makes the last one longer,
or it adds one that starts right there. A value is added where the forecast is a value,
and a key where it is nothing. -/
inductive TokenStep (m : Machine) (s : Symbol) (n : Machine) : Prop
  | same (hn : n.tokens = m.tokens)
  | longer {c : Char} (hs : s = .char c) (hk : m.state.kind.isVisible = true)
      (hn : n.tokens = m.finished.reverse ++ [(m.draft.take c m.here).token])
  | added {c : Char} (kind : Kind) (hs : s = .char c) (hk : kind.isVisible = true)
      (hn : n.tokens = m.tokens ++ [tokenOf kind m.here [c]])
      (hvalue : kind = .value → m.forecast = .value) (hkey : kind = .key → m.forecast = .nothing)

theorem tokenStep_char (h : Steady m) (c : Char) :
    TokenStep m (.char c) (m.feed d (.char c)) := by
  have hn : Steady (m.feed d (.char c)) := h.char c
  cases feed_change (d := d) h c with
  | skip hk hkind hfin =>
    have hvis := hidden_of_skip hk
    refine .same ?_
    rw [tokens_hidden hvis, tokens_hidden (hkind ▸ hvis), hfin]
  | begin kind hk hvis hne hb hfin hdraft hvalue hkey =>
    refine .added kind rfl hvis ?_ hvalue hkey
    rw [tokens_of_draft hn hdraft hvis, hfin,
      tokens_hidden (by rw [hk]; rfl : m.state.kind.isVisible = false)]
    rfl
  | assign hk hc hfin hkind =>
    subst hc
    refine .added .assignment rfl rfl ?_ (by simp) (by simp)
    rw [tokens_hidden (by rw [hkind]; rfl), hfin, List.reverse_cons]
    rfl
  | wait hk hb hfin hdraft =>
    refine .same ?_
    rw [tokens_visible h hk, tokens_of_draft hn hdraft hk, hfin, Draft.wait_token]
  | take hk hfin hdraft =>
    refine .longer rfl hk ?_
    rw [tokens_of_draft hn hdraft hk, hfin]
  | close hk hc hfin hkind =>
    refine .longer rfl (by rw [hk]; rfl) ?_
    rw [tokens_hidden (by rw [hkind]; rfl), hfin, List.reverse_cons]

/-- Every symbol does one of the three. -/
theorem tokenStep_feed (h : Steady m) (s : Symbol) : TokenStep m s (m.feed d s) := by
  cases s with
  | char c => exact tokenStep_char h c
  | lineBreak b =>
    refine .same ?_
    rw [tokens_hidden (congrArg Kind.isVisible (feed_break m b).2), (feed_break m b).1]
    rfl

end Machine

/-! ## Runs -/

/-- The tokens `us` have grown out of the tokens `ts`: all but the last of `ts` are
kept, and the last one is extended. -/
def Outgrows (ts us : List Token) : Prop :=
  ∀ init t, ts = init ++ [t] → ∃ u more, us = init ++ u :: more ∧ t.Extends u

namespace Outgrows

variable {ts us vs : List Token}

theorem refl (ts : List Token) : Outgrows ts ts :=
  fun _ t h => ⟨t, [], h, .refl t⟩

theorem trans (h : Outgrows ts us) (h' : Outgrows us vs) : Outgrows ts vs := by
  intro init t hts
  obtain ⟨u, more, rfl, htu⟩ := h init t hts
  rcases List.eq_nil_or_concat more with rfl | ⟨more, v, rfl⟩
  · -- `u` is the last one still, and is extended again
    obtain ⟨w, rest, rfl, huw⟩ := h' init u rfl
    exact ⟨w, rest, rfl, htu.trans huw⟩
  · -- `u` comes before the last one, and is kept
    obtain ⟨w, rest, rfl, -⟩ := h' (init ++ u :: more) v (by simp)
    exact ⟨u, more ++ w :: rest, by simp, htu⟩

/-- All but the last token are kept. -/
theorem dropLast_first (h : Outgrows ts us) : ts.dropLast <+: us := by
  rcases List.eq_nil_or_concat ts with rfl | ⟨init, t, rfl⟩
  · exact ⟨us, rfl⟩
  · obtain ⟨u, more, rfl, -⟩ := h init t (by simp)
    rw [List.concat_eq_append, List.dropLast_concat]
    exact List.prefix_append _ _

end Outgrows

namespace Machine

variable {d : Dialect} {m n : Machine}

theorem TokenStep.outgrows {s : Symbol} (hstep : TokenStep m s n) (h : Steady m) :
    Outgrows m.tokens n.tokens := by
  cases hstep with
  | same hn => rw [hn]; exact .refl _
  | @longer c hs hk hn =>
    intro init t heq
    obtain ⟨rfl, rfl⟩ := List.append_singleton_inj.1 ((tokens_visible h hk).symm.trans heq)
    exact ⟨_, [], hn, m.draft.extends_take c m.here⟩
  | @added c kind hs hk hn hvalue hkey =>
    intro init t heq
    exact ⟨t, [tokenOf kind m.here [c]], by rw [hn, heq]; simp, .refl t⟩

/-- **A run only adds to the tokens found before it.** -/
theorem outgrows_run (h : Steady m) (ss : List Symbol) : Outgrows m.tokens (m.run d ss).tokens := by
  induction ss generalizing m with
  | nil => exact .refl _
  | cons s ss ih => exact ((tokenStep_feed h s).outgrows h).trans (ih (h.feed s))

/-- A symbol takes at most the last token away from what was found before it. -/
theorem TokenStep.dropLast_first {s : Symbol} (hstep : TokenStep m s n) (h : Steady m) :
    n.tokens.dropLast <+: m.tokens := by
  cases hstep with
  | same hn => rw [hn]; exact (Outgrows.refl _).dropLast_first
  | longer hs hk hn => rw [hn, List.dropLast_concat]; exact finished_prefix_tokens h
  | added kind hs hk hn hvalue hkey => exact ⟨[], by rw [hn, List.dropLast_concat, List.append_nil]⟩

/-- Finished tokens stay. -/
theorem finished_suffix_feed (h : Steady m) (s : Symbol) :
    m.finished <:+ (m.feed d s).finished := by
  have hclose : m.finished <:+ m.close.finished := by
    cases hk : m.state.kind.isVisible with
    | true => exact ⟨[m.draft.token], by rw [close_finished h hk]; rfl⟩
    | false => exact ⟨[], by rw [close_finished_of_hidden hk]; rfl⟩
  cases s with
  | lineBreak b => exact hclose
  | char c =>
    cases feed_change (d := d) h c with
    | skip hk hkind hfin => exact ⟨[], hfin.symm⟩
    | begin kind hk hvis hne hb hfin hdraft hvalue hkey => exact ⟨[], hfin.symm⟩
    | assign hk hc hfin hkind => rw [hfin]; exact hclose.trans (List.suffix_cons _ _)
    | wait hk hb hfin hdraft => exact ⟨[], hfin.symm⟩
    | take hk hfin hdraft => exact ⟨[], hfin.symm⟩
    | close hk hc hfin hkind => rw [hfin]; exact List.suffix_cons _ _

theorem finished_suffix_run (h : Steady m) (ss : List Symbol) :
    m.finished <:+ (m.run d ss).finished := by
  induction ss generalizing m with
  | nil => exact ⟨[], rfl⟩
  | cons s ss ih => exact (finished_suffix_feed h s).trans (ih (h.feed s))

/-- **Finished tokens come first in every run.** -/
theorem finished_prefix_run (h : Steady m) (ss : List Symbol) :
    m.finished.reverse <+: (m.run d ss).tokens :=
  (List.reverse_prefix.2 (finished_suffix_run h ss)).trans (finished_prefix_tokens (h.run ss))

/-- **Every token was begun at its start.** A token of a run was there before, or it
was begun in the middle of the run, at the place reached there. -/
theorem begun_of_run (h : Steady m) {ss : List Symbol} {ts us : List Token} {u : Token}
    (htokens : (m.run d ss).tokens = ts ++ u :: us) :
    ts.length < m.tokens.length ∨
      ∃ ss₁ ss₂, ss = ss₁ ++ ss₂ ∧ ts = (m.run d ss₁).tokens ∧
        u.range.start = (m.run d ss₁).here ∧
        (u.kind = .value → (m.run d ss₁).forecast = .value) ∧
        (u.kind = .key → (m.run d ss₁).forecast = .nothing) := by
  induction ss generalizing m with
  | nil =>
    refine Or.inl ?_
    rw [run_nil] at htokens
    rw [htokens, List.length_append, List.length_cons]
    omega
  | cons s ss ih =>
    rw [run_cons] at htokens
    rcases ih (h.feed s) htokens with hlt | ⟨ss₁, ss₂, rfl, hrest⟩
    · -- the token is there after `s`, so it was there before or `s` added it
      cases tokenStep_feed (d := d) h s with
      | same hn => exact Or.inl (hn ▸ hlt)
      | longer hs hk hn =>
        have hlen : (m.feed d s).tokens.length = m.tokens.length := by
          simp [hn, tokens_visible h hk]
        exact Or.inl (hlen ▸ hlt)
      | added kind hs hk hn hvalue hkey =>
        rw [hn, List.length_append, List.length_singleton] at hlt
        by_cases hlen : ts.length < m.tokens.length
        · exact Or.inl hlen
        · obtain ⟨v, more, hv, htv⟩ := outgrows_run (d := d) (h.feed s) ss m.tokens _ hn
          rw [htokens] at hv
          obtain ⟨rfl, huv⟩ := List.append_inj hv (by omega)
          obtain ⟨rfl, -⟩ := List.cons.inj huv
          exact Or.inr ⟨[], s :: ss, rfl, rfl, htv.start,
            fun hk => hvalue (htv.kind.symm.trans hk), fun hk => hkey (htv.kind.symm.trans hk)⟩
    · exact Or.inr ⟨s :: ss₁, ss₂, rfl, hrest⟩

end Machine

end Lexer

end UnitFile
