import Mathlib.Data.List.Forall2
import UnitFile.Proofs.Consistency
import UnitFile.Proofs.CursorAgreement
import UnitFile.Proofs.LineOrder
/-!
# Directives as parts of the text

The directives of a text are one per key, in order, and each one can be read off the text
at its ranges (`directives_faithful`). No two of them touch, so that a place belongs to
one directive at most, and so does every line of a value.

All tokens are looked at with what is in front of them and behind them (`Spot`). A key
begins its line, so the tokens of a directive end before the next key, with a line break
in between (`Spot.clear_of_mem`). That two ranges with a line break in between do not even
touch is a matter of the line index, which gives one line to every offset
(`InText.pairwise_clear`).

The assignment next to a key need not be on its line. `value_of_unassigned_key` tells when
a key gets the value of an assignment on a line below.
-/

namespace UnitFile

open Lexer Text Grammar

/-! ## Tokens in their list -/

/-- A token of a list, with the tokens in front of it and behind it. -/
structure Spot where
  front : List Token
  token : Token
  behind : List Token
deriving DecidableEq

/-- The tokens of a list that comes behind given tokens, each at its spot. -/
def spotsFrom (front : List Token) : List Token → List Spot
  | [] => []
  | t :: ts => ⟨front, t, ts⟩ :: spotsFrom (front ++ [t]) ts

/-- The tokens of one kind, each at its spot in the list. -/
def spotsOf (kind : Kind) (ts : List Token) : List Spot :=
  (spotsFrom [] ts).filter fun s => s.token.kind == kind

variable {ts front behind between more : List Token} {t u : Token} {s s' : Spot} {kind : Kind}

/-- The spots of a list are its splits. -/
theorem mem_spotsFrom :
    s ∈ spotsFrom front ts ↔
      ∃ before, s.front = front ++ before ∧ ts = before ++ s.token :: s.behind := by
  induction ts generalizing front with
  | nil => simp [spotsFrom]
  | cons t ts ih =>
    rw [spotsFrom, List.mem_cons, ih]
    constructor
    · rintro (rfl | ⟨before, hfront, rfl⟩)
      · exact ⟨[], by simp, rfl⟩
      · exact ⟨t :: before, by simp [hfront], rfl⟩
    · rintro ⟨before, hfront, hts⟩
      cases before with
      | nil =>
        obtain ⟨rfl, rfl⟩ := List.cons.inj hts
        rw [List.append_nil] at hfront
        subst hfront
        exact Or.inl rfl
      | cons x before =>
        obtain ⟨rfl, rfl⟩ := List.cons.inj hts
        exact Or.inr ⟨before, by simp [hfront], rfl⟩

theorem mem_spotsOf :
    s ∈ spotsOf kind ts ↔ ts = s.front ++ s.token :: s.behind ∧ s.token.kind = kind := by
  rw [spotsOf, List.mem_filter, mem_spotsFrom, beq_iff_eq]
  simp

/-- Of two spots in order, the later one is behind the earlier one. -/
theorem spotsFrom_pairwise (front ts : List Token) :
    (spotsFrom front ts).Pairwise fun s s' =>
      ∃ between, s.behind = between ++ s'.token :: s'.behind := by
  induction ts generalizing front with
  | nil => exact List.Pairwise.nil
  | cons t ts ih =>
    refine List.Pairwise.cons (fun s hs => ?_) (ih _)
    obtain ⟨between, -, hts⟩ := mem_spotsFrom.1 hs
    exact ⟨between, hts⟩

theorem spotsOf_pairwise (kind : Kind) (ts : List Token) :
    (spotsOf kind ts).Pairwise fun s s' =>
      ∃ between, s.behind = between ++ s'.token :: s'.behind :=
  (spotsFrom_pairwise [] ts).sublist List.filter_sublist

/-! ## Directives at their spots -/

/-- Whether an assignment comes first. -/
def startsAssigned (ts : List Token) : Bool :=
  ts.head?.any fun t => t.kind == .assignment

/-- The lines of the value of a key with given tokens behind it: the values in the run behind
its assignment. -/
def linesOfKey (behind : List Token) : List Token :=
  if startsAssigned behind then valueTokens behind.tail else []

/-- A directive with its key and its lines, whether an assignment is there or not. -/
theorem directiveOf_eq (header : Option String) (key : Token) (rest : List Token) :
    directiveOf header key rest =
      { header := header
        key := key.text
        keyRange := key.range
        value := if startsAssigned rest then
            some (String.join ((linesOfKey rest).map Token.text))
          else none
        valueRanges := (linesOfKey rest).map Token.range } := by
  cases rest with
  | nil => rfl
  | cons t rest =>
    by_cases ht : t.kind = .assignment
    · simp [directiveOf, startsAssigned, linesOfKey, ht]
    · simp [directiveOf, startsAssigned, linesOfKey, ht]

/-- The directive of a key at its spot. -/
def Spot.directive (s : Spot) : Directive :=
  directiveOf (lastHeader s.front) s.token s.behind

/-- The tokens of the directive of a key: the key and the lines of its value. -/
def Spot.tokens (s : Spot) : List Token :=
  s.token :: linesOfKey s.behind

theorem lastHeader_concat (h : t.kind = .header) : lastHeader (ts ++ [t]) = some t.text := by
  simp [lastHeader, h]

/-- **One directive per key, in order.** -/
theorem directivesUnder_eq (front ts : List Token) :
    directivesUnder (lastHeader front) ts =
      ((spotsFrom front ts).filter fun s => s.token.kind == .key).map Spot.directive := by
  induction ts generalizing front with
  | nil => rfl
  | cons t ts ih =>
    rw [spotsFrom, directivesUnder]
    split
    · rename_i hk
      rw [List.filter_cons_of_neg (by simp [hk]), ← ih, lastHeader_concat hk]
    · rename_i hk
      rw [List.filter_cons_of_pos (by simp [hk]), List.map_cons, ← ih,
        lastHeader_append (by simp [hk])]
      rfl
    · rename_i hheader hkey
      rw [List.filter_cons_of_neg (by simpa using hkey), ← ih,
        lastHeader_append (by simpa using hheader)]

theorem directives_true (ts : List Token) :
    directives ts true = (spotsOf .key ts).map Spot.directive := by
  have hall := directivesUnder_eq [] ts
  rw [directives, List.filter_eq_self.2 (by simp)]
  exact hall

/-- Without the incomplete directives, those with a value are left. -/
theorem directives_false (ts : List Token) :
    directives ts false = (directives ts true).filter fun v => v.value.isSome := by
  simp [directives, Directive.isComplete]

theorem directives_sublist (ts : List Token) (withIncomplete : Bool) :
    (directives ts withIncomplete).Sublist (directives ts true) := by
  cases withIncomplete with
  | true => exact List.Sublist.refl _
  | false => exact directives_false ts ▸ List.filter_sublist

theorem kind_of_mem_linesOfKey (h : t ∈ linesOfKey behind) : t.kind = .value := by
  unfold linesOfKey valueTokens at h
  split at h
  · simpa using (List.mem_filter.1 h).2
  · simp at h

theorem linesOfKey_sublist (behind : List Token) : (linesOfKey behind).Sublist behind.tail := by
  unfold linesOfKey
  split
  · exact List.filter_sublist.trans (List.takeWhile_sublist _)
  · exact List.nil_sublist _

/-- The lines of a value are values behind the assignment of its key, with only values and
comments before them. -/
theorem exists_assignment_of_mem (h : t ∈ linesOfKey behind) :
    ∃ assignment rest, behind = assignment :: rest ∧ assignment.kind = .assignment ∧
      t ∈ rest.takeWhile Token.isValueOrComment := by
  unfold linesOfKey at h
  split at h
  · rename_i hassigned
    cases behind with
    | nil => simp [startsAssigned] at hassigned
    | cons assignment rest =>
      exact ⟨assignment, rest, rfl, by simpa [startsAssigned] using hassigned,
        (List.mem_filter.1 h).1⟩
  · simp at h

theorem takeWhile_append_cons_of_neg {p : Token → Bool} (h : p u = false) :
    (front ++ u :: behind).takeWhile p = front.takeWhile p := by
  induction front with
  | nil => simp [h]
  | cons t front ih => simp [List.takeWhile_cons, ih]

/-- The lines of a value come before the next key. -/
theorem mem_between_of_mem_linesOfKey (hu : u.kind = .key)
    (h : t ∈ linesOfKey (between ++ u :: more)) : t ∈ between := by
  cases between with
  | nil => simp [linesOfKey, startsAssigned, hu] at h
  | cons x between =>
    unfold linesOfKey at h
    split at h
    · have hnot : u.isValueOrComment = false := by simp [Token.isValueOrComment, hu]
      rw [List.cons_append, List.tail_cons, valueTokens, takeWhile_append_cons_of_neg hnot] at h
      exact List.mem_cons_of_mem _ ((List.takeWhile_sublist _).mem (List.mem_filter.1 h).1)
    · simp at h

/-! ## Tokens that do not touch -/

/-- A token that ends before another one starts, with at least a byte in between. -/
def Token.Clear (t u : Token) : Prop :=
  t.range.stop.offset < u.range.start.offset

/-- Tokens that lie in a text, in the order of its lines. -/
structure InText (text : List Char) (ts : List Token) : Prop where
  consistent : ∀ t ∈ ts, t.Consistent text
  before : ts.Pairwise Token.Before
  inLines : InLines ts

theorem tokenize_inText (d : Dialect) (text : String) :
    InText text.toList (tokenize d text).tokens := by
  obtain ⟨trailing, l, hlaid⟩ := laidOut_retokenize d [] text
  rw [retokenize_nil] at hlaid
  exact ⟨fun t ht => hlaid.consistent (by simp) ht, hlaid.pairwise, tokenize_inLines d text⟩

theorem Token.Consistent.start_lt_stop {text : List Char} (h : t.Consistent text) :
    t.range.start.offset < t.range.stop.offset := by
  have hslice := h.slice
  unfold slice? at hslice
  split at hslice
  · obtain ⟨⟨a, b⟩, -, hslice⟩ := Option.bind_eq_some_iff.1 hslice
    obtain ⟨⟨part, c⟩, hcut, hpart⟩ := Option.bind_eq_some_iff.1 hslice
    obtain ⟨-, hlength⟩ := splitAtByte?_eq_some hcut
    obtain rfl : part = t.text.toList := by simpa using hpart
    have hne : byteLength t.text.toList ≠ 0 := fun hzero =>
      h.ne_empty (by simpa using byteLength_eq_zero.1 hzero)
    omega
  · simp at hslice

namespace InText

variable {text : List Char}

/-- **Tokens that cannot share a line do not touch**: if they did, one offset would be on
two lines. -/
theorem pairwise_clear (h : InText text ts) :
    ts.Pairwise fun t u => t.kind.leadsTo u.kind = false → t.Clear u := by
  refine List.Pairwise.imp_of_mem (fun {t u} ht hu hboth hk => ?_)
    (h.before.and h.inLines.pairwise)
  obtain ⟨hle, habove⟩ := hboth
  have hlt := habove.stopLine_lt hk
  unfold Token.Clear
  unfold Token.Before at hle
  by_contra hnot
  have hoffset : t.range.stop.offset = u.range.start.offset := by omega
  have hstop := (h.consistent t ht).stop
  rw [hoffset, (h.consistent u hu).start, Except.ok.injEq] at hstop
  unfold Token.stopLine Token.startLine at hlt
  rw [hstop] at hlt
  omega

theorem start_lt_stop (h : InText text ts) (ht : t ∈ ts) :
    t.range.start.offset < t.range.stop.offset :=
  (h.consistent t ht).start_lt_stop

/-- **A token is found by its range.** -/
theorem spot_eq (h : InText text ts) (hs : ts = s.front ++ s.token :: s.behind)
    (hs' : ts = s'.front ++ s'.token :: s'.behind) (hrange : s.token.range = s'.token.range) :
    s = s' := by
  -- of two tokens at different spots, the later one starts no earlier than the other ends
  have hne : ∀ {a b c : List Token} {x y : Token}, ts = a ++ x :: (b ++ y :: c) →
      x.range ≠ y.range := by
    rintro a b c x y rfl heq
    have hle : x.Before y :=
      (List.pairwise_cons.1 (List.pairwise_append.1 h.before).2.1).1 y (by simp)
    have hlt := h.start_lt_stop (t := x) (by simp)
    unfold Token.Before at hle
    rw [← heq] at hle
    omega
  obtain ⟨front, t, behind⟩ := s
  obtain ⟨front', u, behind'⟩ := s'
  dsimp only at hs hs' hrange
  rcases List.append_eq_append_iff.1 (hs.symm.trans hs') with ⟨x, rfl, hx⟩ | ⟨x, rfl, hx⟩
  · cases x with
    | nil => simp_all
    | cons y x =>
      obtain ⟨rfl, rfl⟩ := List.cons.inj hx
      exact absurd hrange (hne hs)
  · cases x with
    | nil => simp_all
    | cons y x =>
      obtain ⟨rfl, rfl⟩ := List.cons.inj hx
      exact absurd hrange.symm (hne hs')

end InText

/-! ## The tokens of a directive -/

namespace Spot

variable {text : List Char}

theorem directive_valueRanges (s : Spot) :
    s.directive.valueRanges = (linesOfKey s.behind).map Token.range := by
  rw [directive, directiveOf_eq]

theorem directive_keyRange (s : Spot) : s.directive.keyRange = s.token.range := by
  rw [directive, directiveOf_eq]

theorem ranges_eq (s : Spot) :
    s.directive.keyRange :: s.directive.valueRanges = s.tokens.map Token.range := by
  rw [directive_valueRanges, directive_keyRange, tokens, List.map_cons]

theorem covers_iff {offset : Nat} :
    s.directive.covers offset = true ↔ ∃ t ∈ s.tokens, t.range.touches offset = true := by
  rw [Directive.covers, directive_keyRange, directive_valueRanges, Bool.or_eq_true]
  simp [tokens]

theorem tokens_sublist (s : Spot) : s.tokens.Sublist (s.token :: s.behind) :=
  ((linesOfKey_sublist s.behind).trans (List.tail_sublist _)).cons_cons _

/-- **The tokens of a directive do not touch.** Between the key and its value there is at
least the assignment. -/
theorem tokens_clear (h : InText text ts) (hs : s ∈ spotsOf .key ts) :
    s.tokens.Pairwise Token.Clear := by
  obtain ⟨rfl, -⟩ := mem_spotsOf.1 hs
  refine List.Pairwise.cons (fun t ht => ?_) ?_
  · obtain ⟨assignment, rest, hbehind, -, hrun⟩ := exists_assignment_of_mem ht
    have hrest : t ∈ rest := (List.takeWhile_sublist _).mem hrun
    rw [hbehind] at h
    have hbefore := (List.pairwise_append.1 h.before).2.1
    obtain ⟨hkeys, hbefore⟩ := List.pairwise_cons.1 hbefore
    have hkeyLe : s.token.Before assignment := hkeys assignment (by simp)
    have hvalueLe : assignment.Before t := (List.pairwise_cons.1 hbefore).1 t hrest
    have hlt := h.start_lt_stop (t := assignment) (by simp)
    unfold Token.Before at hkeyLe hvalueLe
    unfold Token.Clear
    omega
  · have hsub : (linesOfKey s.behind).Sublist (s.front ++ s.token :: s.behind) :=
      ((List.sublist_cons_self _ _).trans s.tokens_sublist).trans (List.sublist_append_right _ _)
    refine List.Pairwise.imp_of_mem (fun {t u} ht hu hclear => hclear ?_)
      (h.pairwise_clear.sublist hsub)
    rw [kind_of_mem_linesOfKey ht, kind_of_mem_linesOfKey hu]
    rfl

/-- **The tokens of a directive end before the next key.** -/
theorem clear_of_mem (h : InText text ts) (hs : s ∈ spotsOf .key ts) (hu : u.kind = .key)
    (hbehind : s.behind = between ++ u :: more) (ht : t ∈ s.tokens) : t.Clear u := by
  obtain ⟨rfl, -⟩ := mem_spotsOf.1 hs
  have hfront : t ∈ s.front ++ s.token :: between := by
    rw [tokens, hbehind] at ht
    rcases List.mem_cons.1 ht with rfl | ht
    · simp
    · have hmem := mem_between_of_mem_linesOfKey hu ht
      simp [hmem]
  have hsplit : s.front ++ s.token :: s.behind = (s.front ++ s.token :: between) ++ u :: more := by
    simp [hbehind]
  rw [hsplit] at h
  refine (List.pairwise_append.1 h.pairwise_clear).2.2 t hfront u (by simp) ?_
  rw [hu]
  exact Kind.leadsTo_key _

/-- They do not start before their own key. -/
theorem start_le_of_mem (h : InText text ts) (hs : s ∈ spotsOf .key ts) (ht : t ∈ s.tokens) :
    s.token.range.start.offset ≤ t.range.start.offset := by
  have hclear := tokens_clear h hs
  obtain ⟨rfl, -⟩ := mem_spotsOf.1 hs
  rcases List.mem_cons.1 ht with rfl | ht
  · exact Nat.le_refl _
  · have hlt : s.token.Clear t := (List.pairwise_cons.1 hclear).1 t ht
    have hkey := h.start_lt_stop (t := s.token) (by simp)
    unfold Token.Clear at hlt
    omega

/-- **The directives of two keys have no place in common.** -/
theorem not_covers_both (h : InText text ts) (hs : s ∈ spotsOf .key ts) (hs' : s' ∈ spotsOf .key ts)
    (hbehind : s.behind = between ++ s'.token :: more) (offset : Nat) :
    ¬ (s.directive.covers offset = true ∧ s'.directive.covers offset = true) := by
  rintro ⟨hcovers, hcovers'⟩
  obtain ⟨t, ht, htouch⟩ := covers_iff.1 hcovers
  obtain ⟨u, hu, htouch'⟩ := covers_iff.1 hcovers'
  have hclear := clear_of_mem h hs (mem_spotsOf.1 hs').2 hbehind ht
  have hle := start_le_of_mem h hs' hu
  simp only [Range.touches, Bool.and_eq_true, decide_eq_true_eq] at htouch htouch'
  unfold Token.Clear at hclear
  omega

end Spot

/-- No offset is covered by two directives. -/
theorem directives_disjoint {text : List Char} (h : InText text ts) (withIncomplete : Bool) :
    (directives ts withIncomplete).Pairwise fun v v' =>
      ∀ offset, ¬ (v.covers offset = true ∧ v'.covers offset = true) := by
  refine List.Pairwise.sublist (directives_sublist ts withIncomplete) ?_
  rw [directives_true, List.pairwise_map]
  refine List.Pairwise.imp_of_mem (fun {s s'} hs hs' hbehind offset => ?_) (spotsOf_pairwise .key ts)
  obtain ⟨between, hbetween⟩ := hbehind
  exact Spot.not_covers_both h hs hs' hbetween offset

/-! ## At most one of a list -/

section AtMostOne

variable {α : Type} {p : α → Bool} {l l' : List α}

theorem countP_le_one (h : l.Pairwise fun a b => ¬ (p a = true ∧ p b = true)) : l.countP p ≤ 1 := by
  induction l with
  | nil => simp
  | cons a l ih =>
    obtain ⟨ha, hl⟩ := List.pairwise_cons.1 h
    rw [List.countP_cons]
    split
    · rename_i hp
      have hnone : l.countP p = 0 := List.countP_eq_zero.2 fun b hb hpb => ha b hb ⟨hp, hpb⟩
      omega
    · exact ih hl

/-- **What is found does not depend on the order**, if there is one to find at most. -/
theorem find?_eq_of_perm (h : l.Pairwise fun a b => ¬ (p a = true ∧ p b = true))
    (hperm : l'.Perm l) : l'.find? p = l.find? p := by
  have : Std.Symm fun a b => ¬ (p a = true ∧ p b = true) := ⟨fun _ _ hab hba => hab hba.symm⟩
  cases hfound : l.find? p with
  | none =>
    rw [List.find?_eq_none] at hfound ⊢
    exact fun a ha => hfound a (hperm.mem_iff.1 ha)
  | some a =>
    have ha := List.find?_some hfound
    have hmem := List.mem_of_find?_eq_some hfound
    cases hfound' : l'.find? p with
    | none => exact absurd ha (List.find?_eq_none.1 hfound' a (hperm.mem_iff.2 hmem))
    | some b =>
      have hb := List.find?_some hfound'
      have hmem' := hperm.mem_iff.1 (List.mem_of_find?_eq_some hfound')
      by_contra hne
      exact h.forall hmem' hmem (fun heq => hne (by rw [heq])) ⟨hb, ha⟩

end AtMostOne

/-! ## The lines of the values -/

/-- **Walking back over values and comments** leads to a key if there are its assignment
and nothing but values and comments behind it. -/
theorem valuedKey?_isSome_iff :
    (valuedKey? ts).isSome = true ↔ ∃ front key assignment run,
      ts = front ++ key :: assignment :: run ∧ key.kind = .key ∧
      assignment.kind = .assignment ∧ ∀ t ∈ run, t.isValueOrComment = true := by
  constructor
  · intro h
    unfold valuedKey? at h
    split at h
    · rename_i assignment key rest hdrop
      split at h
      · rename_i hkinds
        have hsplit := List.takeWhile_append_dropWhile (p := Token.isValueOrComment) (l := ts.reverse)
        rw [hdrop] at hsplit
        refine ⟨rest.reverse, key, assignment, (ts.reverse.takeWhile Token.isValueOrComment).reverse,
          ?_, hkinds.2, hkinds.1, fun t ht => List.mem_takeWhile_imp (List.mem_reverse.1 ht)⟩
        have hreverse := congrArg List.reverse hsplit
        simpa using hreverse.symm
      · simp at h
    · simp at h
  · rintro ⟨front, key, assignment, run, rfl, hkey, ha, hrun⟩
    rw [valuedKey?_append hkey ha hrun]
    rfl

/-- The number of directives with a line of their value at a range. -/
def lineHolders (list : List Directive) (r : Range) : Nat :=
  list.countP fun v => r ∈ v.valueRanges

variable {text : List Char}

theorem lineHolders_le_one (h : InText text ts) (ht : t ∈ ts) :
    lineHolders (directives ts true) t.range ≤ 1 := by
  refine countP_le_one (List.Pairwise.imp (fun {v v'} hdisjoint hboth => ?_)
    (directives_disjoint h true))
  -- a directive covers the start of every line of its value
  have hcovers : ∀ {v : Directive}, t.range ∈ v.valueRanges →
      v.covers t.range.start.offset = true := by
    intro v hv
    have hlt := h.start_lt_stop ht
    have htouch : t.range.touches t.range.start.offset = true := by
      simp only [Range.touches, Bool.and_eq_true, decide_eq_true_eq]
      omega
    rw [Directive.covers, Bool.or_eq_true, List.any_eq_true]
    exact Or.inr ⟨t.range, hv, htouch⟩
  simp only [decide_eq_true_eq] at hboth
  exact hdisjoint _ ⟨hcovers hboth.1, hcovers hboth.2⟩

/-- **A value belongs to a directive if walking back from it leads to a key.** -/
theorem exists_holder_iff (h : InText text ts) (hs : s ∈ spotsOf .value ts) :
    (∃ v ∈ directives ts true, s.token.range ∈ v.valueRanges) ↔
      (valuedKey? s.front).isSome = true := by
  obtain ⟨hts, hvalue⟩ := mem_spotsOf.1 hs
  rw [directives_true, valuedKey?_isSome_iff]
  constructor
  · rintro ⟨v, hv, hr⟩
    obtain ⟨k, hk, rfl⟩ := List.mem_map.1 hv
    obtain ⟨hsplit, hkey⟩ := mem_spotsOf.1 hk
    obtain ⟨assignment, run, value, more, hbehind, ha, hrun, -, hrange⟩ := exists_value_of_mem hr
    refine ⟨k.front, k.token, assignment, run, ?_, hkey, ha, hrun⟩
    have hspot : s = ⟨k.front ++ k.token :: assignment :: run, value, more⟩ :=
      h.spot_eq hts (by rw [hsplit, hbehind]; simp) hrange.symm
    rw [hspot]
  · rintro ⟨front, key, assignment, run, hfront, hkey, ha, hrun⟩
    refine ⟨_, List.mem_map.2 ⟨⟨front, key, assignment :: (run ++ s.token :: s.behind)⟩,
      mem_spotsOf.2 ⟨?_, hkey⟩, rfl⟩, ?_⟩
    · rw [hts, hfront]
      simp
    · have hline : s.token.isValueOrComment = true := by simp [Token.isValueOrComment, hvalue]
      rw [Spot.directive_valueRanges]
      refine List.mem_map.2 ⟨s.token, ?_, rfl⟩
      simp [linesOfKey, startsAssigned, ha, valueTokens, List.takeWhile_append_of_pos hrun, hline,
        hvalue]

/-! ## Ranges and slices -/

/-- The characters at a range. -/
def Text.sliceAt? (text : List Char) (r : Range) : Option (List Char) :=
  slice? r.start.offset r.stop.offset text

/-- From the start of the first range to the stop of the last one. -/
def Range.span? (rs : List Range) : Option Range :=
  rs.head?.bind fun first => rs.getLast?.map fun last => ⟨first.start, last.stop⟩

theorem Range.foldl_hull {r : Range} {rs : List Range}
    (hproper : ∀ q ∈ r :: rs, q.start.offset < q.stop.offset)
    (hclear : (r :: rs).Pairwise fun q q' => q.stop.offset < q'.start.offset) :
    rs.foldl hull r = ⟨r.start, (rs.getLast?.getD r).stop⟩ := by
  induction rs generalizing r with
  | nil => rfl
  | cons q rs ih =>
    obtain ⟨hr, hrs⟩ := List.pairwise_cons.1 hclear
    obtain ⟨hq, hrest⟩ := List.pairwise_cons.1 hrs
    have hlt : r.stop.offset < q.start.offset := hr q (by simp)
    have hrProper := hproper r (by simp)
    have hqProper := hproper q (by simp)
    have hhull : r.hull q = ⟨r.start, q.stop⟩ := by
      have hstart : ¬ q.start < r.start := by
        show ¬ Location.Lt _ _
        unfold Location.Lt
        omega
      have hstop : r.stop < q.stop := by
        show Location.Lt _ _
        unfold Location.Lt
        omega
      rw [hull, if_neg hstart, if_pos hstop]
    rw [List.foldl_cons, hhull, ih]
    · rw [List.getLast?_cons, Option.getD_some]
      cases rs.getLast? <;> rfl
    · intro x hx
      rcases List.mem_cons.1 hx with rfl | hx
      · show r.start.offset < q.stop.offset
        omega
      · exact hproper x (by simp [hx])
    · exact List.Pairwise.cons hq hrest

/-- **The range around increasing ranges** goes from the first start to the last stop. -/
theorem Range.boundingBox_eq_span? {rs : List Range}
    (hproper : ∀ r ∈ rs, r.start.offset < r.stop.offset)
    (hclear : rs.Pairwise fun r r' => r.stop.offset < r'.start.offset) :
    boundingBox rs = span? rs := by
  cases rs with
  | nil => rfl
  | cons r rs =>
    rw [boundingBox, foldl_hull hproper hclear, span?, List.head?_cons, List.getLast?_cons]
    rfl

theorem mapM_sliceAt? (h : ∀ t ∈ ts, t.Consistent text) :
    (ts.map Token.range).mapM (sliceAt? text) = some (ts.map fun t => t.text.toList) := by
  induction ts with
  | nil => rfl
  | cons t ts ih =>
    obtain ⟨ht, hts⟩ := List.forall_mem_cons.1 h
    have hslice : sliceAt? text t.range = some t.text.toList := ht.slice
    simp [hslice, ih hts]

/-- **What the directive of a key is**, read off the text. -/
structure Spot.Yields (text : List Char) (s : Spot) (v : Directive) : Prop where
  header : v.header = lastHeader s.front
  keyRange : v.keyRange = s.token.range
  key : sliceAt? text v.keyRange = some v.key.toList
  /-- There is a value if the next token is an assignment. -/
  complete : v.value.isSome = startsAssigned s.behind
  /-- The value is put together of the slices at its ranges. -/
  value : ∀ value ∈ v.value,
    (v.valueRanges.mapM (sliceAt? text)).map List.flatten = some value.toList
  /-- The ranges are those of the values in the run behind the assignment of the key. -/
  lines : v.valueRanges = (linesOfKey s.behind).map Token.range
  proper : ∀ r ∈ v.keyRange :: v.valueRanges, r.start.offset < r.stop.offset
  increasing : (v.keyRange :: v.valueRanges).Pairwise fun r r' => r.stop.offset < r'.start.offset
  valueRange : v.valueRange = Range.span? v.valueRanges

theorem Spot.yields_directive (h : InText text ts) (hs : s ∈ spotsOf .key ts) :
    s.Yields text s.directive := by
  have hclear := tokens_clear h hs
  obtain ⟨rfl, -⟩ := mem_spotsOf.1 hs
  have hmem : ∀ t ∈ s.tokens, t ∈ s.front ++ s.token :: s.behind := fun t ht =>
    List.mem_append_right _ (s.tokens_sublist.mem ht)
  have hproper : ∀ r ∈ s.directive.keyRange :: s.directive.valueRanges,
      r.start.offset < r.stop.offset := by
    rw [ranges_eq, List.forall_mem_map]
    exact fun t ht => h.start_lt_stop (hmem t ht)
  have hincreasing : (s.directive.keyRange :: s.directive.valueRanges).Pairwise fun r r' =>
      r.stop.offset < r'.start.offset := by
    rw [ranges_eq, List.pairwise_map]
    exact hclear
  refine ⟨?_, s.directive_keyRange, ?_, ?_, ?_, s.directive_valueRanges, hproper, hincreasing, ?_⟩
  · rw [directive, directiveOf_eq]
  · rw [directive, directiveOf_eq]
    exact (h.consistent s.token (by simp)).slice
  · rw [directive, directiveOf_eq]
    cases startsAssigned s.behind <;> rfl
  · intro value hvalue
    rw [directive, directiveOf_eq] at hvalue
    split at hvalue
    · obtain rfl := Option.some.inj hvalue
      rw [directive_valueRanges, mapM_sliceAt? fun t ht =>
        h.consistent t (hmem t (List.mem_cons_of_mem _ ht)), String.toList_join, List.flatMap_map]
      rfl
    · simp at hvalue
  · exact Range.boundingBox_eq_span? (fun r hr => hproper r (List.mem_cons_of_mem _ hr))
      (List.pairwise_cons.1 hincreasing).2

/-! ## The directives of a text -/

/-- **The directives are faithful parts of the text.** There is one for each key, in order,
and it is what its key and the tokens around it yield. The range of a line of a value is in
one directive at most, and in exactly one if walking back from the line over values and
comments leads to an assignment with a key before it. No offset is covered by two
directives, so the one found at an offset does not depend on their order. Without the
incomplete directives, just those with a value are left. -/
theorem directives_faithful (d : Dialect) (text : String) :
    List.Forall₂ (Spot.Yields text.toList) (spotsOf .key (tokenize d text).tokens)
      (directives (tokenize d text).tokens true) ∧
    (∀ s ∈ spotsOf .value (tokenize d text).tokens,
      lineHolders (directives (tokenize d text).tokens true) s.token.range ≤ 1 ∧
      (lineHolders (directives (tokenize d text).tokens true) s.token.range = 1 ↔
        (valuedKey? s.front).isSome = true)) ∧
    (∀ withIncomplete, (directives (tokenize d text).tokens withIncomplete).Pairwise fun v v' =>
      ∀ offset, ¬ (v.covers offset = true ∧ v'.covers offset = true)) ∧
    (∀ withIncomplete list offset, list.Perm (directives (tokenize d text).tokens withIncomplete) →
      directiveAt? list offset =
        directiveAt? (directives (tokenize d text).tokens withIncomplete) offset) ∧
    directives (tokenize d text).tokens false =
      (directives (tokenize d text).tokens true).filter fun v => v.value.isSome := by
  have h := tokenize_inText d text
  refine ⟨?_, fun s hs => ?_, directives_disjoint h, fun withIncomplete list offset hperm => ?_,
    directives_false _⟩
  · rw [directives_true, List.forall₂_map_right_iff, List.forall₂_same]
    exact fun s hs => s.yields_directive h hs
  · have hle := lineHolders_le_one h (t := s.token) (by rw [(mem_spotsOf.1 hs).1]; simp)
    have hpos : 0 < lineHolders (directives (tokenize d text).tokens true) s.token.range ↔
        (valuedKey? s.front).isSome = true := by
      rw [lineHolders, List.countP_pos_iff, ← exists_holder_iff h hs]
      simp
    exact ⟨hle, by rw [← hpos]; omega⟩
  · exact find?_eq_of_perm ((directives_disjoint h withIncomplete).imp
      fun hdisjoint => hdisjoint offset) hperm

/-- The value in front has no key. The one on the last line is a line of `B`, and is found
at its end in any order of the directives. -/
theorem directives_faithful_continued :
    lineHolders (directives (tokenize .systemd "=0\nA\nB=1\\\n 2").tokens true)
      ⟨⟨1, 0, 1⟩, ⟨2, 0, 2⟩⟩ ≠ 1 ∧
    lineHolders (directives (tokenize .systemd "=0\nA\nB=1\\\n 2").tokens true)
      ⟨⟨11, 3, 1⟩, ⟨12, 3, 2⟩⟩ = 1 ∧
    directiveAt? (directives (tokenize .systemd "=0\nA\nB=1\\\n 2").tokens true).reverse 12 =
      directiveAt? (directives (tokenize .systemd "=0\nA\nB=1\\\n 2").tokens true) 12 := by
  obtain ⟨-, hlines, -, hperm, -⟩ := directives_faithful .systemd "=0\nA\nB=1\\\n 2"
  refine ⟨fun hone => ?_, ?_, hperm true _ 12 (List.reverse_perm _)⟩
  · have hkey := (hlines ⟨(tokenize .systemd "=0\nA\nB=1\\\n 2").tokens.take 1,
      ⟨.value, ⟨⟨1, 0, 1⟩, ⟨2, 0, 2⟩⟩, "0"⟩,
      (tokenize .systemd "=0\nA\nB=1\\\n 2").tokens.drop 2⟩ (by decide +kernel)).2.1 hone
    exact absurd hkey (by decide +kernel)
  · exact (hlines ⟨(tokenize .systemd "=0\nA\nB=1\\\n 2").tokens.take 6,
      ⟨.value, ⟨⟨11, 3, 1⟩, ⟨12, 3, 2⟩⟩, "2"⟩, []⟩ (by decide +kernel)).2.2 (by decide +kernel)

/-! ## Keys without an assignment on their line -/

/-- Whether a symbol is a blank or a line break. -/
def Symbol.isInert : Symbol → Bool
  | .char c => isBlank c
  | .lineBreak _ => true

/-- A part of a text that is put together of blanks and line breaks. -/
def Text.BlankLines (cs : List Char) : Prop :=
  ∃ ss : List Symbol, cs = ss.flatMap Symbol.chars ∧ ∀ x ∈ ss, x.isInert = true

theorem Text.BlankLines.concat {cs : List Char} (h : BlankLines cs) {x : Symbol}
    (hx : x.isInert = true) : BlankLines (cs ++ x.chars) := by
  obtain ⟨ss, rfl, hss⟩ := h
  refine ⟨ss ++ [x], by simp, fun y hy => ?_⟩
  rcases List.mem_append.1 hy with hy | hy
  · exact hss y hy
  · rw [List.mem_singleton.1 hy]
    exact hx

/-- **Behind a token that is no closed header** there are blanks and line breaks up to the
place reached. -/
theorem Lexer.LaidOut.exists_gap {earlier : List Token} {trailing : Bool} {l : Location}
    (h : LaidOut earlier trailing text l (front ++ [t])) (ht : isClosedHeader t = false) :
    trailing = false ∧ ∃ before gap, text = before ++ gap ∧
      t.range.stop.offset = byteLength before ∧ BlankLines gap := by
  generalize hts : front ++ [t] = ts at h
  induction h with
  | start => simp at hts
  | @skip _ _ _ _ c h hc hskip ih =>
    obtain ⟨rfl, before, gap, rfl, hstop, hgap⟩ := ih hts
    have hblank : isBlank c = true := by simpa using hskip
    exact ⟨rfl, before, gap ++ [c], by simp, hstop, hgap.concat (x := .char c) hblank⟩
  | lineBreak h b ih =>
    obtain ⟨-, before, gap, rfl, hstop, hgap⟩ := ih hts
    exact ⟨rfl, before, gap ++ b.chars, by simp, hstop, hgap.concat (x := .lineBreak b) rfl⟩
  | @token _ text l _ u h hu hrange ih =>
    obtain ⟨-, rfl⟩ := List.append_singleton_inj.1 hts
    refine ⟨ht, text ++ t.text.toList, [], by simp, ?_, [], rfl, by simp⟩
    rw [hrange, byteLength_append, ← h.offset_eq, Location.past_offset]

/-- What lies between a key and the token next to it. -/
theorem exists_gap_of_key {d : Dialect} {text : String}
    (h : (tokenize d text).tokens = front ++ t :: u :: behind) (ht : t.kind = .key) :
    ∃ gap, slice? t.range.stop.offset u.range.start.offset text.toList = some gap ∧
      BlankLines gap := by
  obtain ⟨trailing, l, hlaid⟩ := laidOut_retokenize d [] text
  rw [retokenize_nil, h, List.append_cons] at hlaid
  obtain ⟨trailing', upto, rest, hupto, htext, -, -⟩ := hlaid.exists_split
  have hopen : isClosedHeader t = false := by simp [isClosedHeader, ht]
  obtain ⟨-, before, gap, rfl, hstop, hgap⟩ := hupto.exists_gap hopen
  refine ⟨gap, ?_, hgap⟩
  rw [htext, hstop, hupto.offset_eq, byteLength_append, List.append_assoc]
  exact slice?_append ..

/-- **A key with no assignment on its line** has no value, unless the next token is an
assignment. That one opens a line below, with blanks and line breaks in between, and then
the key has the value behind it. -/
theorem value_of_unassigned_key (d : Dialect) (text : String) (s : Spot) (v : Directive)
    (hs : s ∈ spotsOf .key (tokenize d text).tokens)
    (hline : ∀ t ∈ (tokenize d text).tokens, t.kind = .assignment →
      t.startLine ≠ s.token.startLine)
    (hv : v ∈ directives (tokenize d text).tokens true) (hrange : v.keyRange = s.token.range) :
    (startsAssigned s.behind = false → v.value = none ∧ v.valueRanges = []) ∧
    ∀ assignment more, s.behind = assignment :: more → assignment.kind = .assignment →
      s.token.stopLine < assignment.startLine ∧
      (∃ gap, slice? s.token.range.stop.offset assignment.range.start.offset text.toList =
        some gap ∧ BlankLines gap) ∧
      v.value = some (String.join ((valueTokens more).map Token.text)) ∧
      v.valueRanges = (valueTokens more).map Token.range := by
  have h := tokenize_inText d text
  obtain ⟨hts, hkey⟩ := mem_spotsOf.1 hs
  rw [directives_true] at hv
  obtain ⟨k, hk, rfl⟩ := List.mem_map.1 hv
  rw [Spot.directive_keyRange] at hrange
  obtain rfl : k = s := h.spot_eq (mem_spotsOf.1 hk).1 hts hrange
  rw [Spot.directive, directiveOf_eq]
  refine ⟨fun hnone => ?_, fun assignment more hbehind ha => ?_⟩
  · simp [linesOfKey, hnone]
  · rw [hbehind] at hts
    refine ⟨?_, exists_gap_of_key hts hkey, ?_, ?_⟩
    · have hmem : assignment ∈ (tokenize d text).tokens := by rw [hts]; simp
      have hone := h.inLines.oneLine k.token (by rw [hts]; simp)
      have hne := hline assignment hmem ha
      have habove : k.token.Above assignment := by
        have hlines := h.inLines
        rw [hts] at hlines
        exact hlines.above_of_mem (by simp)
      have hle := habove.stopLine_le
      omega
    · simp [linesOfKey, startsAssigned, hbehind, ha]
    · simp [linesOfKey, startsAssigned, hbehind, ha]

/-- An empty line is between `A` and the assignment it gets. `C` gets none. -/
theorem value_of_unassigned_key_below :
    (∃ v ∈ directives (tokenize .systemd "A\n\n =b\nC").tokens true,
      v.keyRange = ⟨⟨0, 0, 0⟩, ⟨1, 0, 1⟩⟩ ∧ v.value = some "b" ∧
      ∃ gap, slice? 1 4 "A\n\n =b\nC".toList = some gap ∧ BlankLines gap) ∧
    ∃ v ∈ directives (tokenize .systemd "A\n\n =b\nC").tokens true,
      v.keyRange = ⟨⟨7, 3, 0⟩, ⟨8, 3, 1⟩⟩ ∧ v.value = none ∧ v.valueRanges = [] := by
  have hbelow := value_of_unassigned_key .systemd "A\n\n =b\nC"
    ⟨[], ⟨.key, ⟨⟨0, 0, 0⟩, ⟨1, 0, 1⟩⟩, "A"⟩, (tokenize .systemd "A\n\n =b\nC").tokens.drop 1⟩
    ⟨none, "A", ⟨⟨0, 0, 0⟩, ⟨1, 0, 1⟩⟩, some "b", [⟨⟨5, 2, 2⟩, ⟨6, 2, 3⟩⟩]⟩
    (by decide +kernel) (by decide +kernel) (by decide +kernel) rfl
  have hnone := value_of_unassigned_key .systemd "A\n\n =b\nC"
    ⟨(tokenize .systemd "A\n\n =b\nC").tokens.take 3, ⟨.key, ⟨⟨7, 3, 0⟩, ⟨8, 3, 1⟩⟩, "C"⟩, []⟩
    ⟨none, "C", ⟨⟨7, 3, 0⟩, ⟨8, 3, 1⟩⟩, none, []⟩
    (by decide +kernel) (by decide +kernel) (by decide +kernel) rfl
  obtain ⟨-, hgap, hvalue, -⟩ := hbelow.2 ⟨.assignment, ⟨⟨4, 2, 1⟩, ⟨5, 2, 2⟩⟩, "="⟩
    ((tokenize .systemd "A\n\n =b\nC").tokens.drop 2) (by decide +kernel) rfl
  exact ⟨⟨_, by decide +kernel, rfl, hvalue, hgap⟩, ⟨_, by decide +kernel, rfl, hnone.1 rfl⟩⟩

/-- **A key can have the value of an assignment on another line.** -/
theorem value_from_line_below :
    ∃ key ∈ (tokenize .systemd "A\n=b").tokens, key.kind = .key ∧
      (∀ t ∈ (tokenize .systemd "A\n=b").tokens, t.kind = .assignment →
        t.startLine ≠ key.startLine) ∧
      ∃ v ∈ directives (tokenize .systemd "A\n=b").tokens true, v.keyRange = key.range ∧
        v.value = some "b" ∧ v.valueRanges ≠ [] :=
  ⟨⟨.key, ⟨⟨0, 0, 0⟩, ⟨1, 0, 1⟩⟩, "A"⟩, by decide +kernel, rfl, by decide +kernel,
    ⟨none, "A", ⟨⟨0, 0, 0⟩, ⟨1, 0, 1⟩⟩, some "b", [⟨⟨3, 1, 1⟩, ⟨4, 1, 2⟩⟩]⟩, by decide +kernel, rfl,
    rfl, by simp⟩

end UnitFile
