import UnitFile.Cursor
import UnitFile.Proofs.Growth
import UnitFile.Proofs.Reuse
/-!
# The cursor and the directives

A directive is collected forwards over the tokens of the whole text; the context of
a cursor is read backwards off the tokens before it. Both tell the same at every
place of a key or a value, its ends included (`cursor_agrees_with_directive`).

The text before the cursor is cut within a key or a value, or at one of its ends.
There the tokens before that one are known, the token itself is under way or about
to begin, and the forecast is its kind (`tokens_at_cut`): keys and values are
finished only by a later character (`EndsBehind`), and values begin only where one
is forecast.
-/

namespace UnitFile

open Lexer Text Grammar

namespace Lexer.Machine

variable {d : Dialect} {m : Machine} {ts us : List Token} {u : Token}

/-! ## A cut at a key or a value -/

/-- The keys and values finished end before the place reached. -/
def EndsBehind (m : Machine) : Prop :=
  ∀ t ∈ m.finished, t.kind.isEscapable = true → t.range.stop.offset < m.here.offset

/-- Once a symbol has been read, the token that was under way ends behind it. -/
theorem EndsBehind.of_close (h : Steady m) (hm : EndsBehind m) {l : Location}
    (hl : m.here.offset < l.offset) {t : Token} (ht : t ∈ m.close.finished)
    (hk : t.kind.isEscapable = true) : t.range.stop.offset < l.offset := by
  cases hvis : m.state.kind.isVisible with
  | false =>
    rw [close_finished_of_hidden hvis] at ht
    have hlt := hm t ht hk
    omega
  | true =>
    rw [close_finished h hvis] at ht
    rcases List.mem_cons.1 ht with rfl | ht
    · have hle : m.draft.token.range.stop.offset ≤ m.here.offset := (h.content hvis).2
      omega
    · have hlt := hm t ht hk
      omega

/-- **A key or a value is finished only by a character behind it.** -/
theorem EndsBehind.feed (h : Steady m) (hm : EndsBehind m) (s : Symbol) :
    EndsBehind (m.feed d s) := by
  have hlt := here_lt_feed (d := d) m s
  have hold : ∀ t ∈ m.finished, t.kind.isEscapable = true →
      t.range.stop.offset < (m.feed d s).here.offset := by
    intro t ht hk
    have hbefore := hm t ht hk
    omega
  intro t ht hk
  cases s with
  | lineBreak b => exact hm.of_close h hlt ht hk
  | char c =>
    cases feed_change (d := d) h c with
    | skip _ _ hfin => exact hold t (hfin ▸ ht) hk
    | begin _ _ _ _ _ hfin => exact hold t (hfin ▸ ht) hk
    | wait _ _ hfin => exact hold t (hfin ▸ ht) hk
    | take _ hfin => exact hold t (hfin ▸ ht) hk
    | assign _ _ hfin =>
      rw [hfin] at ht
      rcases List.mem_cons.1 ht with rfl | ht
      · simp [tokenOf, Kind.isEscapable] at hk
      · exact hm.of_close h hlt ht hk
    | close hheader _ hfin =>
      rw [hfin] at ht
      rcases List.mem_cons.1 ht with rfl | ht
      · have hkind : (m.draft.take c m.here).token.kind = .header := hheader
        rw [hkind] at hk
        contradiction
      · exact hold t ht hk

theorem EndsBehind.run (h : Steady m) (hm : EndsBehind m) (ss : List Symbol) :
    EndsBehind (m.run d ss) := by
  induction ss generalizing m with
  | nil => exact hm
  | cons s ss ih => exact ih (h.feed s) (hm.feed h s)

theorem endsBehind_start : EndsBehind {} := by
  intro t ht
  simp at ht

/-- **What the machine holds within a key or a value.** If a run goes on to a key or a
value `u` around the place reached, the tokens before `u` have been found, no other
one but a part of `u` has, and the forecast is the kind of `u`, or nothing where a key
is about to begin. -/
theorem tokens_at_cut (h : Steady m) (hm : EndsBehind m) {ss : List Symbol}
    (htokens : (m.run d ss).tokens = ts ++ u :: us) (hk : u.kind.isEscapable = true)
    (hstart : u.range.start.offset ≤ m.here.offset)
    (hstop : m.here.offset ≤ u.range.stop.offset) :
    ∃ part, m.tokens = ts ++ part ∧ (∀ t ∈ part, t.kind = u.kind) ∧
      (m.forecast = u.kind ∨ u.kind = .key ∧ m.forecast = .nothing) := by
  -- `u` is no finished token, since it would end behind the place reached
  have hfinished : m.finished.length ≤ ts.length := by
    by_contra hlt
    have hmem : u ∈ m.finished.reverse := by
      obtain ⟨rest, hrest⟩ := finished_prefix_run (d := d) h ss
      have hget : (m.finished.reverse ++ rest)[ts.length]? = some u := by
        rw [hrest, htokens]
        simp
      rw [List.getElem?_append_left (by simpa using hlt)] at hget
      exact List.mem_of_getElem? hget
    have hbehind := hm u (List.mem_reverse.1 hmem) hk
    omega
  rcases begun_of_run h htokens with hlt | ⟨ss₁, ss₂, hsplit, hts, hhere, hvalue, hkey⟩
  · -- `u` has grown out of the token under way
    cases hvis : m.state.kind.isVisible with
    | false =>
      rw [tokens_hidden hvis, List.length_reverse] at hlt
      omega
    | true =>
      have hfound := tokens_visible h hvis
      obtain ⟨v, more, hv, htv⟩ := outgrows_run (d := d) h ss _ _ hfound
      rw [hfound, List.length_append, List.length_reverse, List.length_singleton] at hlt
      rw [htokens] at hv
      obtain ⟨rfl, huv⟩ := List.append_inj hv (by rw [List.length_reverse]; omega)
      obtain ⟨rfl, -⟩ := List.cons.inj huv
      have hkind : u.kind = m.state.kind := htv.kind
      refine ⟨[m.draft.token], hfound, ?_, Or.inl ?_⟩
      · intro t ht
        rw [List.mem_singleton.1 ht]
        exact hkind.symm
      · rw [forecast_visible h hvis, hkind]
  · -- `u` is begun at the place reached, so by the next symbol
    have hle := (here_run (d := d) m ss₁).2
    have hoffset := congrArg Location.offset hhere
    have hnil : ss₁ = [] := List.length_eq_zero_iff.1 (by omega)
    subst hnil
    refine ⟨[], by rw [hts, List.append_nil]; rfl, by simp, ?_⟩
    cases hukind : u.kind with
    | key => exact Or.inr ⟨rfl, hkey hukind⟩
    | value => exact Or.inl (hvalue hukind)
    | _ => rw [hukind] at hk; contradiction

end Lexer.Machine

/-! ## A cut at a key or a value of a text -/

variable {d : Dialect} {text : String} {ts us : List Token} {u : Token}

/-- No break is cut within a token or at its ends. -/
theorem not_splitsBreak_of_mem {before after : List Char} (hu : u ∈ (tokenize d text).tokens)
    (htext : text.toList = before ++ after)
    (hstart : u.range.start.offset ≤ byteLength before)
    (hstop : byteLength before ≤ u.range.stop.offset) : ¬ SplitsBreak before after := by
  rintro ⟨hr, hn⟩
  obtain ⟨front, rest, hstands⟩ := exists_stands hu
  have hfront := hstands.start
  have hwhole := hstands.stop
  have hsplit := hstands.split
  rw [htext, List.append_assoc] at hsplit
  simp only [Nat.zero_add] at hfront hwhole
  obtain ⟨x, rfl, hx⟩ := exists_append_of_byteLength_le hsplit (by omega)
  rw [byteLength_append] at hwhole hstop
  obtain ⟨y, hy, rfl⟩ := exists_append_of_byteLength_le hx (by omega)
  -- the `\n` would be a character of the token, or come right after its last `\r`
  cases y with
  | cons c y =>
    obtain rfl : c = '\n' := by simpa using hn
    exact hstands.oneLine (by rw [hy]; simp)
  | nil =>
    rw [List.append_nil] at hy
    rw [← hy, List.getLast?_append_of_ne_nil _ hstands.text_ne_nil] at hr
    exact hstands.ends.2 hr hn

/-- **The tokens before a cursor at a key or a value.** -/
theorem tokenize_at_cut {before after : List Char} (htext : text.toList = before ++ after)
    (htokens : (tokenize d text).tokens = ts ++ u :: us) (hk : u.kind.isEscapable = true)
    (htouch : u.range.touches (byteLength before) = true) :
    ∃ part, (tokenize d (String.ofList before)).tokens = ts ++ part ∧
      (∀ t ∈ part, t.kind = u.kind) ∧
      ((tokenize d (String.ofList before)).forecast = u.kind ∨
        u.kind = .key ∧ (tokenize d (String.ofList before)).forecast = .nothing) := by
  obtain ⟨hstart, hstop⟩ : u.range.start.offset ≤ byteLength before ∧
      byteLength before ≤ u.range.stop.offset := by
    simpa [Range.touches] using htouch
  have hcut : ¬ SplitsBreak before after :=
    not_splitsBreak_of_mem (by rw [htokens]; simp) htext hstart hstop
  rw [tokens_tokenize, htext, run_append_text d hcut] at htokens
  have hhere : (Machine.run d {} (symbols before)).here.offset = byteLength before := by
    rw [Machine.here_run_symbols, Nat.zero_add]
  rw [← hhere] at hstart hstop
  have hbehind := Machine.endsBehind_start.run (d := d) Machine.steady_start (symbols before)
  have hcuts := Machine.tokens_at_cut (Machine.steady_start.run _) hbehind htokens hk hstart hstop
  unfold tokenize
  rw [String.toList_ofList]
  exact hcuts

/-! ## Headers and keys before a cursor -/

/-- The text of the last section header among some tokens. -/
def lastHeader (ts : List Token) : Option String :=
  (ts.reverse.find? fun t => t.kind == .header).map Token.text

/-- Tokens that are no headers change nothing about it. -/
theorem lastHeader_append (h : ∀ t ∈ us, t.kind ≠ .header) :
    lastHeader (ts ++ us) = lastHeader ts := by
  have hnone : us.reverse.find? (fun t => t.kind == .header) = none := by
    rw [List.find?_eq_none]
    intro t ht
    simpa using h t (List.mem_reverse.1 ht)
  rw [lastHeader, List.reverse_append, List.find?_append, hnone, Option.none_or, lastHeader]

/-- The header in the context of a cursor, if no header is being typed there. -/
theorem ofTokens_header {forecast : Kind} (h : forecast ≠ .header) (offset : Nat) :
    (CursorContext.ofTokens ts forecast offset).header = lastHeader ts := by
  unfold CursorContext.ofTokens
  dsimp only
  split
  · rename_i hsome
    obtain ⟨t, ht⟩ := Option.isSome_iff_exists.1 hsome
    obtain ⟨hlast, hkind⟩ := Option.filter_eq_some_iff.1 ht
    obtain ⟨init, rfl⟩ := List.getLast?_eq_some_iff.1 hlast
    have hne : t.kind ≠ .header := by
      simp only [Bool.and_eq_true, beq_iff_eq] at hkind
      rw [hkind.1]
      exact h
    rw [List.dropLast_concat]
    exact (lastHeader_append (by simpa using hne)).symm
  · rfl

/-- Walking back over the lines of a value leads to its key. -/
theorem valuedKey?_append {key assignment : Token} (hk : key.kind = .key)
    (ha : assignment.kind = .assignment) (hus : ∀ t ∈ us, t.isValueOrComment = true) :
    valuedKey? (ts ++ key :: assignment :: us) = some key.text := by
  have hdrop : (ts ++ key :: assignment :: us).reverse.dropWhile Token.isValueOrComment =
      assignment :: key :: ts.reverse := by
    have hnot : assignment.isValueOrComment = false := by simp [Token.isValueOrComment, ha]
    have hreverse : (ts ++ key :: assignment :: us).reverse =
        us.reverse ++ assignment :: key :: ts.reverse := by simp
    rw [hreverse, List.dropWhile_append_of_pos fun t ht => hus t (List.mem_reverse.1 ht),
      List.dropWhile_cons_of_neg (by simp [hnot])]
  unfold valuedKey?
  rw [hdrop]
  simp [ha, hk]

/-! ## Directives and their tokens -/

theorem lastHeader_cons (t : Token) (ts : List Token) :
    lastHeader (t :: ts) =
      (lastHeader ts).or (if t.kind = .header then some t.text else none) := by
  rw [lastHeader, List.reverse_cons, List.find?_append, Option.map_or, ← lastHeader]
  by_cases hk : t.kind = .header
  · simp [hk]
  · simp [hk]

/-- **Where a directive comes from**: its key, under the last header before it. -/
theorem exists_key_of_mem {v : Directive} {header : Option String} {tokens : List Token}
    (h : v ∈ directivesUnder header tokens) :
    ∃ ts key rest, tokens = ts ++ key :: rest ∧ key.kind = .key ∧
      v = directiveOf ((lastHeader ts).or header) key rest := by
  induction tokens generalizing header with
  | nil => simp [directivesUnder] at h
  | cons t tokens ih =>
    -- a directive below `t` has `t` before its key
    have hbelow : ∀ {header' : Option String}, v ∈ directivesUnder header' tokens →
        (if t.kind = .header then some t.text else none).or header = header' →
        ∃ ts key rest, t :: tokens = ts ++ key :: rest ∧ key.kind = .key ∧
          v = directiveOf ((lastHeader ts).or header) key rest := by
      rintro header' hmem rfl
      obtain ⟨ts, key, rest, rfl, hkey, rfl⟩ := ih hmem
      refine ⟨t :: ts, key, rest, rfl, hkey, ?_⟩
      rw [lastHeader_cons, Option.or_assoc]
    unfold directivesUnder at h
    split at h
    · rename_i hk
      exact hbelow h (by simp [hk])
    · rename_i hk
      rcases List.mem_cons.1 h with rfl | h
      · exact ⟨[], t, tokens, rfl, hk, rfl⟩
      · exact hbelow h (by simp [hk])
    · rename_i hheader _
      exact hbelow h (by rw [if_neg hheader]; rfl)

/-- The lines of a value stand behind its assignment, with only lines of it and
comments before them. -/
theorem exists_value_of_mem {header : Option String} {key : Token} {rest : List Token} {r : Range}
    (h : r ∈ (directiveOf header key rest).valueRanges) :
    ∃ assignment vs value more, rest = assignment :: (vs ++ value :: more) ∧
      assignment.kind = .assignment ∧ (∀ t ∈ vs, t.isValueOrComment = true) ∧
      value.kind = .value ∧ value.range = r := by
  cases rest with
  | nil => simp [directiveOf] at h
  | cons assignment rest =>
    by_cases ha : assignment.kind = .assignment
    · simp only [directiveOf, ha, if_true] at h
      obtain ⟨value, hvalue, hr⟩ := List.mem_map.1 h
      obtain ⟨hmem, hk⟩ := List.mem_filter.1 hvalue
      obtain ⟨vs, more, hsplit⟩ := List.append_of_mem hmem
      refine ⟨assignment, vs, value, more ++ rest.dropWhile Token.isValueOrComment, ?_, ha, ?_,
        by simpa using hk, hr⟩
      · have hrest := List.takeWhile_append_dropWhile (p := Token.isValueOrComment) (l := rest)
        rw [hsplit, List.append_assoc, List.cons_append] at hrest
        rw [hrest]
      · intro t ht
        have hall := List.mem_takeWhile_imp (p := Token.isValueOrComment) (l := rest) (x := t)
        exact hall (by rw [hsplit]; simp [ht])
    · simp [directiveOf, ha] at h

theorem directiveOf_key (header : Option String) (key : Token) (rest : List Token) :
    (directiveOf header key rest).header = header ∧
      (directiveOf header key rest).key = key.text ∧
      (directiveOf header key rest).keyRange = key.range := by
  cases rest with
  | nil => exact ⟨rfl, rfl, rfl⟩
  | cons t rest =>
    simp only [directiveOf]
    split <;> exact ⟨rfl, rfl, rfl⟩

/-! ## Both sides -/

/-- The context of a cursor, from the text before it. -/
def contextAfter (d : Dialect) (before : List Char) : CursorContext :=
  CursorContext.ofTokens (tokenize d (String.ofList before)).tokens
    (tokenize d (String.ofList before)).forecast (byteLength before)

/-- At a key the cursor is under the header of the key. -/
theorem context_at_key {before after : List Char} {key : Token} {rest : List Token}
    (htext : text.toList = before ++ after)
    (htokens : (tokenize d text).tokens = ts ++ key :: rest) (hkey : key.kind = .key)
    (htouch : key.range.touches (byteLength before) = true) :
    (contextAfter d before).header = lastHeader ts := by
  obtain ⟨part, htokens', hpart, hforecast⟩ :=
    tokenize_at_cut htext htokens (by rw [hkey]; rfl) htouch
  have hne : (tokenize d (String.ofList before)).forecast ≠ .header := by
    rcases hforecast with hforecast | ⟨-, hforecast⟩ <;> simp [hforecast, hkey]
  rw [contextAfter, ofTokens_header hne, htokens']
  refine lastHeader_append fun t ht => ?_
  rw [hpart t ht, hkey]
  decide

/-- At a line of a value the cursor is in a value of that key, under its header. -/
theorem context_at_value {before after : List Char} {key assignment value : Token}
    {vs more : List Token} (htext : text.toList = before ++ after)
    (htokens : (tokenize d text).tokens = ts ++ key :: assignment :: (vs ++ value :: more))
    (hkey : key.kind = .key) (ha : assignment.kind = .assignment)
    (hvs : ∀ t ∈ vs, t.isValueOrComment = true) (hvalue : value.kind = .value)
    (htouch : value.range.touches (byteLength before) = true) :
    (contextAfter d before).header = lastHeader ts ∧ (contextAfter d before).kind = .value ∧
      (contextAfter d before).key = some key.text := by
  have hsplit : (tokenize d text).tokens =
      (ts ++ key :: assignment :: vs) ++ value :: more := by
    rw [htokens]
    simp
  obtain ⟨part, htokens', hpart, hforecast⟩ :=
    tokenize_at_cut htext hsplit (by rw [hvalue]; rfl) htouch
  have hkind : (tokenize d (String.ofList before)).forecast = .value := by
    rcases hforecast with hforecast | ⟨hne, -⟩
    · rw [hforecast, hvalue]
    · rw [hvalue] at hne
      contradiction
  rw [List.append_assoc, List.cons_append, List.cons_append] at htokens'
  -- the lines of the value so far, the part of the last one included
  have hlines : ∀ t ∈ vs ++ part, t.isValueOrComment = true := by
    intro t ht
    rcases List.mem_append.1 ht with ht | ht
    · exact hvs t ht
    · simp [Token.isValueOrComment, hpart t ht, hvalue]
  have hheaders : ∀ t ∈ key :: assignment :: (vs ++ part), t.kind ≠ .header := by
    intro t ht hheader
    rcases List.mem_cons.1 ht with rfl | ht
    · rw [hkey] at hheader
      contradiction
    rcases List.mem_cons.1 ht with rfl | ht
    · rw [ha] at hheader
      contradiction
    · have hline := hlines t ht
      simp [Token.isValueOrComment, hheader] at hline
  refine ⟨?_, hkind, ?_⟩
  · rw [contextAfter, ofTokens_header (by rw [hkind]; decide), htokens']
    exact lastHeader_append hheaders
  · have hvalued : valuedKey? (ts ++ key :: assignment :: (vs ++ part)) = some key.text :=
      valuedKey?_append hkey ha hlines
    rw [← htokens'] at hvalued
    simp only [contextAfter, CursorContext.ofTokens, hkind, if_true]
    exact hvalued

/-- **The cursor agrees with the directives.** Where a directive covers a place of a
text, a cursor there stands under the header of the directive; and on a line of its
value, ends included, the cursor is in a value, and that of its key. -/
theorem cursor_agrees_with_directive (d : Dialect) (text : String) (withIncomplete : Bool)
    (offset : Nat) (v : Directive) (hoffset : isBoundary offset text.toList = true)
    (hv : directiveAt? (directives (tokenize d text).tokens withIncomplete) offset = some v) :
    ∃ context, cursorContext d text offset = .ok context ∧ context.header = v.header ∧
      ((∃ r ∈ v.valueRanges, r.touches offset = true) →
        context.kind = .value ∧ context.key = some v.key) := by
  obtain ⟨⟨before, after⟩, hcut⟩ := Option.isSome_iff_exists.1 hoffset
  obtain ⟨htext, rfl⟩ := splitAtByte?_eq_some hcut
  have hcovers : v.covers (byteLength before) = true := by
    have hfound := List.find?_some hv
    simpa using hfound
  have hmem : v ∈ directivesUnder none (tokenize d text).tokens :=
    (List.mem_filter.1 (List.mem_of_find?_eq_some hv)).1
  obtain ⟨ts, key, rest, htokens, hkey, rfl⟩ := exists_key_of_mem hmem
  obtain ⟨hheader, hname, hrange⟩ := directiveOf_key ((lastHeader ts).or none) key rest
  rw [Option.or_none] at hheader hname hrange hcovers ⊢
  have hvalues : (∃ r ∈ (directiveOf (lastHeader ts) key rest).valueRanges,
      r.touches (byteLength before) = true) →
      (contextAfter d before).header = lastHeader ts ∧ (contextAfter d before).kind = .value ∧
        (contextAfter d before).key = some key.text := by
    rintro ⟨r, hr, htouch⟩
    obtain ⟨assignment, vs, value, more, rfl, ha, hvs, hvalue, rfl⟩ := exists_value_of_mem hr
    exact context_at_value htext htokens hkey ha hvs hvalue htouch
  refine ⟨contextAfter d before, cursorContext_of_split hcut, ?_, fun hr => ?_⟩
  · rw [hheader]
    rcases Bool.or_eq_true_iff.1 hcovers with hcovers | hcovers
    · rw [hrange] at hcovers
      exact context_at_key htext htokens hkey hcovers
    · exact (hvalues (List.any_eq_true.1 hcovers)).1
  · rw [hname]
    exact (hvalues hr).2

/-- At the start of the second line of a value, with a comment line in between, the
value has yet to begin, and the cursor is in it already. -/
theorem cursor_agrees_with_directive_continued :
    ∃ context, cursorContext .systemd "[A]\nB=1 \\\n# c\n  2" 16 = .ok context ∧
      context.header = some "[A]" ∧ context.kind = .value ∧ context.key = some "B" := by
  obtain ⟨context, hcontext, hheader, hvalue⟩ :=
    cursor_agrees_with_directive .systemd "[A]\nB=1 \\\n# c\n  2" true 16
      ⟨some "[A]", "B", ⟨⟨4, 1, 0⟩, ⟨5, 1, 1⟩⟩, some "1 \\2",
        [⟨⟨6, 1, 2⟩, ⟨9, 1, 5⟩⟩, ⟨⟨16, 3, 2⟩, ⟨17, 3, 3⟩⟩]⟩
      (by decide +kernel) (by decide +kernel)
  exact ⟨context, hcontext, hheader,
    hvalue ⟨⟨⟨16, 3, 2⟩, ⟨17, 3, 3⟩⟩, by simp, by decide⟩⟩

end UnitFile
