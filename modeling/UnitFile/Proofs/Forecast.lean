import UnitFile.Proofs.Growth
import UnitFile.Proofs.LineRun
/-!
# What a forecast foretells

The forecast of a text is the kind of token that one more character would belong to.
It is worked out from the state at the end of the text (`Machine.forecast`), apart from
the code that reads that character (`Machine.step`). Here the two are set side by
side: each forecast says what a character that is no blank and no line break does to
the tokens.

Only a comment sign needs more than the forecast. It begins a comment in place of a
value that is awaited, but only where the line has had nothing but blanks. So the
machine has to know whether it has (`KnowsIndent`), which one character keeps up, and
then a whole text.
-/

namespace UnitFile

open Lexer Text Grammar

/-- The tokens `us` are the tokens `ts` and one more. -/
def AddsOne (P : Token → Prop) (ts us : List Token) : Prop :=
  ∃ t, us = ts ++ [t] ∧ P t

/-- The last token is of the given kind and stops at the given offset. -/
def LastStopsAt (kind : Kind) (stop : Nat) (ts : List Token) : Prop :=
  ∃ t, ts.getLast? = some t ∧ t.kind = kind ∧ t.range.stop.offset = stop

namespace Lexer

namespace Machine

variable {d : Dialect} {m : Machine} {c : Char}

/-! ## The indent of the line -/

/-- The machine knows whether the characters of its line are blanks only, and if so
nothing is under way. -/
structure KnowsIndent (line : List Char) (m : Machine) : Prop where
  blank : AllBlank line → m.state.kind = .nothing ∧ m.state.pastIndent = false
  solid : ¬ AllBlank line → m.state.pastIndent = true

theorem KnowsIndent.pastIndent_eq_false {line : List Char} (h : KnowsIndent line m) :
    m.state.pastIndent = false ↔ AllBlank line := by
  refine ⟨fun hp => ?_, fun hline => (h.blank hline).2⟩
  by_contra hline
  rw [h.solid hline] at hp
  contradiction

theorem allBlank_nil : AllBlank [] :=
  fun _ hc => absurd hc List.not_mem_nil

theorem allBlank_append_singleton {line : List Char} :
    AllBlank (line ++ [c]) ↔ AllBlank line ∧ isBlank c = true := by
  simp [AllBlank, or_imp, forall_and]

@[simp] theorem pastIndent_accumulate :
    (m.accumulate d c).state.pastIndent = m.state.pastIndent := by
  unfold accumulate takeTrimmed
  split <;> split <;> rfl

@[simp] theorem pastIndent_close : m.close.state.pastIndent = m.state.pastIndent := by
  simp only [close]
  split <;> rfl

/-- A character that is not blank ends the indent. -/
theorem pastIndent_classify (hb : isBlank c = false) :
    (m.classify d c).state.pastIndent = true := by
  simp only [classify, hb, Bool.false_eq_true, if_false]
  split_ifs <;> first | rfl | rw [pastIndent_accumulate]; rfl

/-- Past the indent the rest of the line is so too. -/
theorem pastIndent_step (h : m.state.pastIndent = true) (c : Char) :
    (m.step d c).state.pastIndent = true := by
  unfold step
  split
  case h_1 | h_2 =>
    cases hb : isBlank c with
    | false => exact pastIndent_classify hb
    | true =>
      simp only [classify, hb, if_true]
      split <;> exact h
  case h_3 => exact h
  case h_4 =>
    have htrim : (m.takeTrimmed c).state.pastIndent = true := by
      unfold takeTrimmed
      split <;> exact h
    dsimp only
    split_ifs
    · rw [pastIndent_close, htrim]
    · exact htrim
  case h_5 => exact h
  case h_6 =>
    split_ifs
    · exact pastIndent_close.trans h
    · rw [pastIndent_accumulate, h]
  case h_7 => rw [pastIndent_accumulate, h]

theorem KnowsIndent.char {line : List Char} (h : KnowsIndent line m) (c : Char) :
    KnowsIndent (line ++ [c]) (m.feed d (.char c)) := by
  constructor
  · intro hline
    obtain ⟨hline, hb⟩ := allBlank_append_singleton.1 hline
    obtain ⟨hk, hp⟩ := h.blank hline
    rw [feed_idle hk]
    cases d <;> simp [classify, hb, hk, hp, Dialect.hasIndentedValues]
  · intro hline
    -- the indent ends with this character, or has ended before
    by_cases hblank : AllBlank line
    · have hb : isBlank c = false := by
        by_contra hb
        exact hline (allBlank_append_singleton.2 ⟨hblank, by simpa using hb⟩)
      rw [feed_idle (h.blank hblank).1]
      exact pastIndent_classify hb
    · exact pastIndent_step (h.solid hblank) c

theorem KnowsIndent.run_line {line : List Char} (h : KnowsIndent line m) (cs : List Char) :
    KnowsIndent (line ++ cs) (m.run d (cs.map .char)) := by
  induction cs generalizing line m with
  | nil => simpa using h
  | cons c cs ih =>
    rw [List.map_cons, run_cons, List.append_cons]
    exact ih (h.char c)

/-- At the start of a line there is no indent yet. -/
theorem knowsIndent_nil (hk : m.state.kind = .nothing) (hp : m.state.pastIndent = false) :
    KnowsIndent [] m :=
  ⟨fun _ => ⟨hk, hp⟩, fun h => absurd allBlank_nil h⟩

/-- **The machine knows the indent of the last line of what it has read.** -/
theorem KnowsIndent.run (text : List Char) (h : KnowsIndent [] m) :
    KnowsIndent (cutLines text).2 (m.run d (symbols text)) := by
  induction text using lines_induction generalizing m with
  | last cs hcs =>
    rw [symbols_of_notMem hcs, cutLines_of_notMem hcs]
    exact h.run_line cs
  | line ln hln rest ih =>
    rw [symbols_whole_append hln, cutLines_whole_append hln, run_append, run_cons]
    exact ih (knowsIndent_nil rfl rfl)

/-! ## The state behind a forecast -/

/-- **Within a token, or behind a header, the forecast is what is under way. Between
tokens it is a value where one is awaited, and else nothing.** -/
theorem forecast_eq (h : Steady m) :
    m.forecast =
      if m.state.kind = .nothing then if m.awaitsValue then .value else .nothing
      else m.state.kind := by
  split_ifs with hk hv
  · rw [forecast_idle h hk, if_pos hv]
  · rw [forecast_idle h hk, if_neg hv]
  · have hne := h.kind
    unfold forecast
    cases hkind : m.state.kind <;> simp_all

theorem forecast_ne_assignment (h : Steady m) : m.forecast ≠ .assignment := by
  rw [forecast_eq h]
  split_ifs
  · decide
  · decide
  · exact h.kind

/-- Any forecast but a value or nothing is what is under way. -/
theorem kind_of_forecast (h : Steady m) (hvalue : m.forecast ≠ .value)
    (hnothing : m.forecast ≠ .nothing) : m.state.kind = m.forecast := by
  rw [forecast_eq h] at hvalue hnothing ⊢
  split_ifs with hk hv
  · simp [hk, hv] at hvalue
  · simp [hk, hv] at hnothing
  · rfl

/-! ## What the next character does -/

/-- A character behind a closed header changes no token. -/
theorem tokens_feed_discarded (hk : m.state.kind = .discarded) (c : Char) :
    (m.feed d (.char c)).tokens = m.tokens := by
  rw [feed_discarded hk, tokens_hidden (by rw [hk]; rfl), tokens_hidden (by rw [hk]; rfl)]

/-- Between tokens a character begins a token or is one, and it begins a value only
where the forecast is a value. -/
theorem tokens_feed_idle (h : Steady m) (hk : m.state.kind = .nothing) (hb : isBlank c = false) :
    ∃ kind : Kind, kind.isVisible = true ∧ (kind = .value → m.forecast = .value) ∧
      (m.feed d (.char c)).tokens = m.tokens ++ [tokenOf kind m.here [c]] := by
  have hidle : m.tokens = m.finished.reverse := tokens_hidden (by rw [hk]; rfl)
  cases feed_change (d := d) h c with
  | skip hskip hkind hfin => simp [hk, hb] at hskip
  | begin kind hk' hvis hne hb' hfin hdraft hvalue hkey =>
    refine ⟨kind, hvis, hvalue, ?_⟩
    rw [tokens_of_draft (h.char c) hdraft hvis, hfin, hidle]
    rfl
  | assign hk' hc hfin hkind =>
    subst hc
    refine ⟨.assignment, rfl, by simp, ?_⟩
    rw [tokens_hidden (by rw [hkind]; rfl), hfin, List.reverse_cons]
    rfl
  | wait hvis hb' hfin hdraft => simp [hk, Kind.isVisible] at hvis
  | take hvis hfin hdraft => simp [hk, Kind.isVisible] at hvis
  | close hheader hc hfin hkind => simp [hk] at hheader

/-- An `=` ends the key under way, and is an assignment. -/
theorem tokens_feed_key_assign (hk : m.state.kind = .key) :
    (m.feed d (.char '=')).tokens = m.tokens ++ [tokenOf .assignment m.here ['=']] := by
  have hfeed : m.feed d (.char '=') = { m.close.assign with here := m.here.after '=' } := by
    simp [feed, step, hk]
  have hfin : m.close.assign.finished =
      tokenOf .assignment m.close.here ['='] :: m.close.finished := rfl
  rw [close_here] at hfin
  rw [hfeed, tokens_hidden rfl, hfin, List.reverse_cons]
  rfl

/-- Any other character that is not blank makes the token under way longer. -/
theorem lastStopsAt_of_visible (h : Steady m) (hk : m.state.kind.isVisible = true)
    (hb : isBlank c = false) (hkey : m.state.kind = .key → c ≠ '=') :
    LastStopsAt m.state.kind (m.here.after c).offset (m.feed d (.char c)).tokens := by
  have hlonger : (m.feed d (.char c)).tokens =
      m.finished.reverse ++ [(m.draft.take c m.here).token] := by
    cases feed_change (d := d) h c with
    | skip hskip hkind hfin => simp [hidden_of_skip hskip] at hk
    | begin kind hk' hvis hne hb' hfin hdraft hvalue hkey => simp [hk', Kind.isVisible] at hk
    | assign hk' hc hfin hkind =>
      rcases hk' with hk' | hk'
      · simp [hk', Kind.isVisible] at hk
      · exact absurd hc (hkey hk')
    | wait hk' hb' hfin hdraft => simp [hb] at hb'
    | take hk' hfin hdraft => rw [tokens_of_draft (h.char c) hdraft hk, hfin]
    | close hk' hc hfin hkind =>
      rw [tokens_hidden (by rw [hkind]; rfl), hfin, List.reverse_cons]
  exact ⟨_, by rw [hlonger, List.getLast?_concat], rfl, rfl⟩

/-- A comment sign behind the indent begins a comment. -/
theorem tokens_feed_comment (hk : m.state.kind = .nothing) (hp : m.state.pastIndent = false)
    (hc : d.isCommentSign c = true) :
    (m.feed d (.char c)).tokens = m.tokens ++ [tokenOf .comment m.here [c]] := by
  rw [tokens, feed_comment hk hp hc, finished_close_within rfl (by simp [counted]),
    List.reverse_cons, tokens_hidden (by rw [hk]; rfl)]
  rfl

/-- Any other character begins a value where one is awaited. -/
theorem tokens_feed_value (h : Steady m) (hk : m.state.kind = .nothing) (hb : isBlank c = false)
    (hv : m.awaitsValue = true) (hc : m.state.pastIndent = false → d.isCommentSign c = false) :
    (m.feed d (.char c)).tokens = m.tokens ++ [tokenOf .value m.here [c]] := by
  have hcount : counted .value [c] = [c] := by
    simp [counted, List.rdropWhile_singleton, hb]
  rw [tokens, feed_value hk hb hc h.carried.2 hv,
    finished_close_within rfl (by rw [hcount]; simp), hcount, List.reverse_cons,
    tokens_hidden (by rw [hk]; rfl)]
  rfl

/-! ## What each forecast foretells -/

variable {line : List Char}

/-- Where nothing is forecast, the next character is a token of its own that is no
value. -/
theorem addsOne_of_forecast_nothing (h : Steady m) (hf : m.forecast = .nothing)
    (hb : isBlank c = false) :
    AddsOne (fun t => t.text = String.singleton c ∧
        t.kind ∈ [Kind.comment, .header, .assignment, .key])
      m.tokens (m.feed d (.char c)).tokens := by
  have hk : m.state.kind = .nothing := by
    rw [forecast_eq h] at hf
    split_ifs at hf with hk
    · exact hk
    · exact hf
  obtain ⟨kind, hvis, hvalue, htokens⟩ := tokens_feed_idle (d := d) h hk hb
  refine ⟨_, htokens, rfl, ?_⟩
  cases kind <;> simp_all [tokenOf, Kind.isVisible]

/-- Where a value is forecast, the next character belongs to one, unless it is a comment
sign behind the indent. -/
theorem lastStopsAt_of_forecast_value (h : Steady m) (hf : m.forecast = .value)
    (hline : KnowsIndent line m) (hb : isBlank c = false)
    (hc : AllBlank line → d.isCommentSign c = false) :
    LastStopsAt .value (m.here.after c).offset (m.feed d (.char c)).tokens := by
  by_cases hk : m.state.kind = .nothing
  · have hv : m.awaitsValue = true := by
      rw [forecast_eq h, if_pos hk] at hf
      by_contra hv
      simp [hv] at hf
    have htokens := tokens_feed_value h hk hb hv
      fun hp => hc (hline.pastIndent_eq_false.1 hp)
    exact ⟨_, by rw [htokens, List.getLast?_concat], rfl, rfl⟩
  · have hkind : m.state.kind = .value := by rwa [forecast_eq h, if_neg hk] at hf
    have hlast := lastStopsAt_of_visible (d := d) h (by rw [hkind]; rfl) hb (by simp [hkind])
    rwa [hkind] at hlast

/-- Where a header, a key or a comment is forecast, the next character belongs to it,
unless it is an `=` behind a key. -/
theorem lastStopsAt_of_forecast {kind : Kind} (h : Steady m) (hf : m.forecast = kind)
    (hvis : kind.isVisible = true) (hvalue : kind ≠ .value) (hb : isBlank c = false)
    (hkey : kind = .key → c ≠ '=') :
    LastStopsAt kind (m.here.after c).offset (m.feed d (.char c)).tokens := by
  have hnothing : m.forecast ≠ .nothing := fun hn => by simp [← hf, hn, Kind.isVisible] at hvis
  have hk : m.state.kind = kind := (kind_of_forecast h (hf ▸ hvalue) hnothing).trans hf
  have hlast := lastStopsAt_of_visible (d := d) h (by rwa [hk]) hb (by rwa [hk])
  rwa [hk] at hlast

end Machine

end Lexer

/-! ## Whole texts -/

/-- One more character is read from where the text leads. -/
theorem tokens_push (d : Dialect) (text : String) {c : Char} (hc : c ≠ '\n') :
    (tokenize d (text.push c)).tokens =
      ((Machine.run d {} (symbols text.toList)).feed d (.char c)).tokens := by
  have hcut : ¬ SplitsBreak text.toList [c] := by
    rintro ⟨-, hhead⟩
    exact hc (by simpa using hhead)
  have hsymbols : symbols [c] = [.char c] := symbols_of_notMem (by simpa using hc.symm)
  rw [tokens_tokenize, String.toList_push, run_append_text d hcut, hsymbols]
  rfl

/-- **The forecast foretells what the next character does**, for any character but a blank
or a line break. It is never an assignment. Where it is nothing, the character is one
more token. Where it is a value, the character belongs to a value, but a comment sign
begins a comment if the last line has had only blanks. Where it is a key, a header or a
comment, the character makes the last token longer, but an `=` ends a key. Where it is
`discarded`, the tokens stay as they are. -/
theorem forecast_foretells (d : Dialect) (text : String) (c : Char) (hb : isBlank c = false)
    (hc : c ≠ '\n') :
    (tokenize d text).forecast ≠ .assignment ∧
    ((tokenize d text).forecast = .nothing →
      AddsOne (fun t => t.text = String.singleton c ∧
          t.kind ∈ [Kind.comment, .header, .assignment, .key])
        (tokenize d text).tokens (tokenize d (text.push c)).tokens) ∧
    ((tokenize d text).forecast = .value →
      (AllBlank (cutLines text.toList).2 ∧ d.isCommentSign c = true →
        AddsOne (fun t => t.text = String.singleton c ∧ t.kind = .comment)
          (tokenize d text).tokens (tokenize d (text.push c)).tokens) ∧
      (¬ (AllBlank (cutLines text.toList).2 ∧ d.isCommentSign c = true) →
        LastStopsAt .value (byteLength (text.push c).toList)
          (tokenize d (text.push c)).tokens)) ∧
    ((tokenize d text).forecast = .key →
      (c = '=' →
        AddsOne (fun t => t.text = "=" ∧ t.kind = .assignment)
          (tokenize d text).tokens (tokenize d (text.push c)).tokens) ∧
      (c ≠ '=' →
        LastStopsAt .key (byteLength (text.push c).toList)
          (tokenize d (text.push c)).tokens)) ∧
    (∀ kind ∈ [Kind.header, .comment], (tokenize d text).forecast = kind →
      LastStopsAt kind (byteLength (text.push c).toList)
        (tokenize d (text.push c)).tokens) ∧
    ((tokenize d text).forecast = .discarded →
      (tokenize d (text.push c)).tokens = (tokenize d text).tokens) := by
  have hstop : byteLength (text.push c).toList =
      ((Machine.run d {} (symbols text.toList)).here.after c).offset := by
    rw [Machine.after_offset, Machine.here_run_symbols, String.toList_push, byteLength_append]
    simp
  have hforecast : (tokenize d text).forecast =
      (Machine.run d {} (symbols text.toList)).forecast := rfl
  have hline : Machine.KnowsIndent (cutLines text.toList).2
      (Machine.run d {} (symbols text.toList)) :=
    Machine.KnowsIndent.run _ (Machine.knowsIndent_nil rfl rfl)
  have hm : (Machine.run d {} (symbols text.toList)).Steady := Machine.steady_start.run _
  rw [tokens_push d text hc, tokens_tokenize, hforecast, hstop]
  -- all that is left of the text is the machine at its end and what it knows
  generalize Machine.run d {} (symbols text.toList) = m at hline hm
  refine ⟨Machine.forecast_ne_assignment hm, fun hf => ?_, fun hf => ⟨?_, ?_⟩,
    fun hf => ⟨?_, ?_⟩, ?_, fun hf => ?_⟩
  · exact Machine.addsOne_of_forecast_nothing hm hf hb
  · rintro ⟨hblank, hsign⟩
    obtain ⟨hk, hp⟩ := hline.blank hblank
    exact ⟨_, Machine.tokens_feed_comment hk hp hsign, rfl, rfl⟩
  · intro hnot
    exact Machine.lastStopsAt_of_forecast_value hm hf hline hb (by simpa using hnot)
  · rintro rfl
    have hk : m.state.kind = .key := by
      rw [Machine.kind_of_forecast hm (by simp [hf]) (by simp [hf]), hf]
    exact ⟨_, Machine.tokens_feed_key_assign hk, rfl, rfl⟩
  · intro hne
    exact Machine.lastStopsAt_of_forecast hm hf rfl (by decide) hb fun _ => hne
  · intro kind hkind hf
    simp only [List.mem_cons, List.not_mem_nil, or_false] at hkind
    obtain rfl | rfl := hkind
    · exact Machine.lastStopsAt_of_forecast hm hf rfl (by decide) hb nofun
    · exact Machine.lastStopsAt_of_forecast hm hf rfl (by decide) hb nofun
  · have hk : m.state.kind = .discarded := by
      rw [Machine.kind_of_forecast hm (by simp [hf]) (by simp [hf]), hf]
    exact Machine.tokens_feed_discarded hk c

/-- After an escaped line break a value is awaited: a letter begins it, and a comment sign
begins a comment. -/
theorem forecast_foretells_continued :
    LastStopsAt .value 6 (tokenize .systemd "K=a\\\nb").tokens ∧
    AddsOne (fun t => t.text = "#" ∧ t.kind = .comment)
      (tokenize .systemd "K=a\\\n").tokens (tokenize .systemd "K=a\\\n#").tokens := by
  have hforecast : (tokenize .systemd "K=a\\\n").forecast = .value := by decide +kernel
  have hnil : (cutLines "K=a\\\n".toList).2 = [] := by decide +kernel
  have hblank : AllBlank (cutLines "K=a\\\n".toList).2 := by
    rw [hnil]
    exact Machine.allBlank_nil
  obtain ⟨-, -, hletter, -⟩ := forecast_foretells .systemd "K=a\\\n" 'b' rfl (by decide)
  obtain ⟨-, -, hsign, -⟩ := forecast_foretells .systemd "K=a\\\n" '#' rfl (by decide)
  refine ⟨(hletter hforecast).2 (by simp [Dialect.isCommentSign]), ?_⟩
  exact (hsign hforecast).1 ⟨hblank, rfl⟩

end UnitFile
