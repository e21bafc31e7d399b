import UnitFile.Proofs.Extraction
import UnitFile.Proofs.FoldFamilies
/-!
# Folds of values alone

The fold of a value is found from its assignment on, with a loop of its own: the values
and comments behind the assignment are taken, and comments at the very start of a line
are given back at the end. A directive collects the same values from its key on. So a
directive whose value goes on below its assignment has a fold, and all its lines are in it
(`value_folds_exact`).

An assignment is neither a value nor a comment, and nothing follows a value or a comment
on its line. So each fold ends above the next assignment (`Spot.FoldedBy.lt_assignment`), and
nesting has nothing to do.
-/

namespace UnitFile

open Lexer Text Grammar

/-- The family of values alone. -/
def FoldOptions.onlyValues : FoldOptions :=
  { comments := false, regions := false, values := true, sections := false }

namespace Spot

/-- The values and comments that follow a token. -/
def run (s : Spot) : List Token :=
  s.behind.takeWhile Token.isValueOrComment

/-- The tokens behind them. -/
def rest (s : Spot) : List Token :=
  s.behind.dropWhile Token.isValueOrComment

/-- Whether a value that follows is on a line below. -/
def isContinued (s : Spot) : Bool :=
  s.run.any fun t => t.kind == .value && s.token.startLine < t.startLine

/-- **The fold of a value**, by the spot of its assignment: it starts there, it holds every
line of the value, and it ends above the next token that is neither a value nor a
comment. -/
structure FoldedBy (s : Spot) (f : Fold) : Prop where
  start : f.startLine = s.token.startLine
  kind : f.kind = none
  holds : ∀ t ∈ s.run, t.kind = .value → t.stopLine ≤ f.stopLine
  ends : ∀ t ∈ s.rest.head?, f.stopLine < t.startLine

/-- The fold that is found at a spot. -/
def fold? (s : Spot) : Option Fold :=
  valueFold? s.token.startLine s.behind

end Spot

/-- The assignments of values that go on over later lines. -/
def continuedSpots (ts : List Token) : List Spot :=
  (spotsOf .assignment ts).filter Spot.isContinued

variable {ts : List Token} {t u : Token} {s : Spot} {f g : Fold}

/-! ## The fold of one value -/

/-- Nothing follows a value or a comment on its line. -/
theorem Token.leadsTo_of_isValueOrComment (h : t.isValueOrComment = true) (k : Kind) :
    t.kind.leadsTo k = false := by
  unfold Token.isValueOrComment at h
  cases hk : t.kind <;> simp_all [Kind.leadsTo]

section ValueLines

variable {line : Nat} {after init detached rest : List Token} {last : Token}

/-- The lines of a value and the comments given back are what follows its assignment. -/
theorem ValueLines.takeWhile_eq (h : ValueLines line after f init last detached rest) :
    after.takeWhile Token.isValueOrComment = init ++ last :: detached := by
  have hsplit : after = (init ++ last :: detached) ++ rest := by simp [h.split]
  rw [hsplit, List.takeWhile_append_of_pos h.run]
  cases rest with
  | nil => simp
  | cons u rest => simp [h.behind u rfl]

theorem ValueLines.dropWhile_eq (h : ValueLines line after f init last detached rest) :
    after.dropWhile Token.isValueOrComment = rest := by
  have hsplit : after = (init ++ last :: detached) ++ rest := by simp [h.split]
  rw [hsplit, List.dropWhile_append_of_pos h.run]
  cases rest with
  | nil => rfl
  | cons u rest => rw [List.dropWhile_cons_of_neg (by simp [h.behind u rfl])]

end ValueLines

namespace Spot

theorem behind_eq (s : Spot) : s.behind = s.run ++ s.rest :=
  List.takeWhile_append_dropWhile.symm

/-- **There is a fold if the value goes on below.** The comments given back make no
difference. -/
theorem fold?_isSome (s : Spot) : s.fold?.isSome = s.isContinued := by
  obtain ⟨detached, hrun, hcomments⟩ := exists_detached s.behind
  have hnone : (detached.any fun t => t.kind == .value && s.token.startLine < t.startLine) =
      false := by
    rw [List.any_eq_false]
    intro t ht
    simp [hcomments t ht]
  rw [isContinued, run, hrun, List.any_append, hnone, Bool.or_false, fold?, valueFold?]
  split
  · rename_i hany
    obtain ⟨v, hv, -⟩ := List.any_eq_true.1 hany
    have hne : valueBody s.behind ≠ [] := List.ne_nil_of_mem hv
    rw [hany, Option.isSome_map, List.getLast?_eq_some_getLast hne]
    rfl
  · rename_i hany
    rw [Bool.not_eq_true] at hany
    rw [hany]
    rfl

/-- **What the fold found is.** -/
theorem foldedBy_of_fold? (hts : InLines ts) (hs : s ∈ spotsOf .assignment ts)
    (hf : s.fold? = some f) : s.FoldedBy f := by
  obtain ⟨init, last, detached, more, hv⟩ := exists_valueLines hf
  obtain ⟨rfl, -⟩ := mem_spotsOf.1 hs
  have hsplit : s.front ++ s.token :: s.behind =
      (s.front ++ s.token :: init) ++ last :: (detached ++ more) := by
    simp [hv.split]
  rw [hsplit] at hts
  refine ⟨by rw [hv.fold], by rw [hv.fold], fun t ht hvalue => ?_, fun t ht => ?_⟩
  · rw [hv.fold]
    show t.stopLine ≤ last.stopLine
    rw [run, hv.takeWhile_eq] at ht
    rcases List.mem_append.1 ht with ht | ht
    · have habove := hts.above_of_mem_front (List.mem_append_right s.front (List.mem_cons_of_mem _ ht))
      have hone := hts.oneLine last (by simp)
      have hle := habove.stopLine_le
      omega
    rcases List.mem_cons.1 ht with rfl | ht
    · exact Nat.le_refl _
    · have hcomment := hv.comments t ht
      rw [hcomment] at hvalue
      contradiction
  · rw [hv.fold]
    rw [rest, hv.dropWhile_eq] at ht
    have hmem : t ∈ detached ++ more := List.mem_append_right _ (List.mem_of_mem_head? ht)
    exact (hts.above_of_mem hmem).stopLine_lt
      (Token.leadsTo_of_isValueOrComment (hv.run last (by simp)) _)

/-- **The fold of a value ends above all assignments behind it.** -/
theorem FoldedBy.lt_assignment (h : s.FoldedBy f) (hts : InLines s.behind) (hu : u ∈ s.behind)
    (ha : u.kind = .assignment) : f.stopLine < u.startLine := by
  have hrest : u ∈ s.rest := by
    rw [s.behind_eq] at hu
    refine (List.mem_append.1 hu).resolve_left fun hrun => ?_
    have hline := List.mem_takeWhile_imp hrun
    simp [Token.isValueOrComment, ha] at hline
  have hlines : InLines s.rest := by
    rw [s.behind_eq] at hts
    exact hts.of_append_right
  cases hcons : s.rest with
  | nil => simp [hcons] at hrest
  | cons x more =>
    have hlt := h.ends x (by simp [hcons])
    rw [hcons] at hrest hlines
    rcases List.mem_cons.1 hrest with rfl | hmore
    · exact hlt
    · have habove : x.Above u := (List.pairwise_cons.1 hlines.pairwise).1 u hmore
      have hone := hlines.oneLine x List.mem_cons_self
      have hle := habove.stopLine_le
      omega

/-- A fold that is found goes on below its first line. -/
theorem FoldedBy.isMultiline (h : s.FoldedBy f) (hts : InLines s.behind)
    (hs : s.isContinued = true) : f.isMultiline = true := by
  obtain ⟨t, ht, hvalue⟩ := List.any_eq_true.1 hs
  simp only [Bool.and_eq_true, beq_iff_eq, decide_eq_true_eq] at hvalue
  have hone := hts.oneLine t ((List.takeWhile_sublist _).mem ht)
  have hle := h.holds t ht hvalue.1
  have hstart := h.start
  simp only [Fold.isMultiline, decide_eq_true_eq]
  omega

end Spot

/-! ## The folds of all values -/

theorem valueFolds_eq (front ts : List Token) :
    valueFolds ts =
      ((spotsFrom front ts).filter fun s => s.token.kind == .assignment).filterMap Spot.fold? := by
  induction ts generalizing front with
  | nil => rfl
  | cons t ts ih =>
    rw [valueFolds, spotsFrom, ih (front ++ [t])]
    by_cases hk : t.kind = .assignment
    · rw [if_pos hk, List.filter_cons_of_pos (by simp [hk]), List.filterMap_cons, Spot.fold?]
      dsimp only
      cases valueFold? t.startLine ts <;> rfl
    · rw [if_neg hk, List.filter_cons_of_neg (by simp [hk])]
      rfl

/-- What is found in a list, one by one, against the members where something is found. -/
theorem forall₂_filterMap {α β : Type} {R : α → β → Prop} {p : α → Bool} {found : α → Option β}
    {l : List α} (hsome : ∀ a ∈ l, (found a).isSome = p a)
    (hfound : ∀ a ∈ l, ∀ b, found a = some b → R a b) :
    List.Forall₂ R (l.filter p) (l.filterMap found) := by
  induction l with
  | nil => exact .nil
  | cons a l ih =>
    obtain ⟨ha, hl⟩ := List.forall_mem_cons.1 hsome
    obtain ⟨hb, hbs⟩ := List.forall_mem_cons.1 hfound
    have hrest := ih hl hbs
    cases hcase : found a with
    | none =>
      rw [hcase] at ha
      rw [List.filter_cons_of_neg (by simp [← ha]), List.filterMap_cons_none hcase]
      exact hrest
    | some b =>
      rw [hcase] at ha
      rw [List.filter_cons_of_pos (by simp [← ha]), List.filterMap_cons_some hcase]
      exact .cons (hb b hcase) hrest

/-- **One fold for each value that goes on below its assignment**, in order. -/
theorem forall₂_valueFolds (hts : InLines ts) :
    List.Forall₂ Spot.FoldedBy (continuedSpots ts) (valueFolds ts) := by
  rw [valueFolds_eq [] ts]
  exact forall₂_filterMap (fun s _ => s.fold?_isSome)
    fun s hs f hf => Spot.foldedBy_of_fold? hts hs hf

theorem mem_valueFolds_iff_spot :
    f ∈ valueFolds ts ↔ ∃ s ∈ spotsOf .assignment ts, s.fold? = some f := by
  rw [valueFolds_eq [] ts, List.mem_filterMap]
  rfl

theorem InLines.behind (hts : InLines ts) (hs : ts = s.front ++ s.token :: s.behind) :
    InLines s.behind := by
  rw [hs, List.append_cons] at hts
  exact hts.of_append_right

/-- **The folds of values stand one below the other.** -/
theorem valueFolds_pairwise (hts : InLines ts) :
    (valueFolds ts).Pairwise fun f g => f.stopLine < g.startLine := by
  rw [valueFolds_eq [] ts, List.pairwise_filterMap]
  refine (spotsOf_pairwise .assignment ts).imp_of_mem fun {s s'} hs hs' hbehind f hf g hg => ?_
  obtain ⟨between, hbetween⟩ := hbehind
  have hfold := Spot.foldedBy_of_fold? hts hs hf
  rw [(Spot.foldedBy_of_fold? hts hs' hg).start]
  exact hfold.lt_assignment (hts.behind (mem_spotsOf.1 hs).1) (by rw [hbetween]; simp)
    (mem_spotsOf.1 hs').2

theorem isMultiline_of_mem_valueFolds (hts : InLines ts) (hf : f ∈ valueFolds ts) :
    f.isMultiline = true := by
  obtain ⟨s, hs, hfold⟩ := mem_valueFolds_iff_spot.1 hf
  have hsome : s.isContinued = true := by rw [← s.fold?_isSome, hfold]; rfl
  exact (Spot.foldedBy_of_fold? hts hs hfold).isMultiline (hts.behind (mem_spotsOf.1 hs).1) hsome

/-- **Nesting leaves the folds of values as they are.** -/
theorem folds_onlyValues (mark : List Char → Marker) (hts : InLines ts) :
    folds mark .onlyValues ts = valueFolds ts := by
  have hcandidates : foldCandidates mark .onlyValues ts = valueFolds ts := by
    simpa [foldCandidates, FoldOptions.onlyValues] using
      fun f hf => isMultiline_of_mem_valueFolds hts hf
  rw [← hcandidates]
  refine folds_eq_candidates ?_
  rw [hcandidates]
  exact valueFolds_pairwise hts

/-- The fold of a value is told by its first line. -/
theorem eq_of_startLine_eq (hts : InLines ts) (hf : f ∈ valueFolds ts) (hg : g ∈ valueFolds ts)
    (hstart : f.startLine = g.startLine) : f = g := by
  have hne : (valueFolds ts).Pairwise fun f g => f.startLine ≠ g.startLine := by
    refine (valueFolds_pairwise hts).imp_of_mem fun {f g} hf _ hlt => ?_
    have hmulti := isMultiline_of_mem_valueFolds hts hf
    simp only [Fold.isMultiline, decide_eq_true_eq] at hmulti
    omega
  have : Std.Symm fun f g : Fold => f.startLine ≠ g.startLine := ⟨fun _ _ h => h.symm⟩
  by_contra hdiffer
  exact hne.forall hf hg hdiffer hstart

/-! ## Values of directives -/

/-- A directive with a range around its value has an assignment next to its key. The lines
of the value follow the assignment, and at the last one the range ends. -/
theorem Spot.exists_assignment {text : List Char} (h : InText text ts) (hs : s ∈ spotsOf .key ts)
    {r : Range} (hr : s.directive.valueRange = some r) :
    ∃ a ∈ spotsOf .assignment ts, ts = s.front ++ s.token :: a.token :: a.behind ∧
      (∀ q ∈ s.directive.valueRanges, ∃ t ∈ a.run, t.kind = .value ∧ t.range = q) ∧
      ∃ t ∈ a.run, t.kind = .value ∧ t.range.stop = r.stop := by
  obtain ⟨hts, -⟩ := mem_spotsOf.1 hs
  obtain ⟨last, hlast, hstop⟩ : ∃ t ∈ linesOfKey s.behind, t.range.stop = r.stop := by
    rw [(s.yields_directive h hs).valueRange, Range.span?, s.directive_valueRanges,
      List.getLast?_map] at hr
    obtain ⟨first, -, hr⟩ := Option.bind_eq_some_iff.1 hr
    obtain ⟨q, hq, rfl⟩ := Option.map_eq_some_iff.1 hr
    obtain ⟨t, ht, rfl⟩ := Option.map_eq_some_iff.1 hq
    exact ⟨t, List.mem_of_getLast? ht, rfl⟩
  obtain ⟨assignment, rest, hbehind, ha, hrun⟩ := exists_assignment_of_mem hlast
  rw [hbehind] at hts
  refine ⟨⟨s.front ++ [s.token], assignment, rest⟩, mem_spotsOf.2 ⟨by simp [hts], ha⟩, hts, ?_,
    last, hrun, kind_of_mem_linesOfKey hlast, hstop⟩
  intro q hq
  rw [s.directive_valueRanges] at hq
  obtain ⟨t, ht, rfl⟩ := List.mem_map.1 hq
  obtain ⟨assignment', rest', hbehind', -, hmem⟩ := exists_assignment_of_mem ht
  obtain ⟨rfl, rfl⟩ := List.cons.inj (hbehind.symm.trans hbehind')
  exact ⟨t, hmem, kind_of_mem_linesOfKey ht, rfl⟩

/-- A value that goes on below its assignment has one fold, and all its lines are in it. -/
theorem exists_fold_of_continued (hts : InLines ts) (hs : s ∈ spotsOf .assignment ts)
    (hcontinued : s.isContinued = true) :
    ∃ f ∈ valueFolds ts, f.startLine = s.token.startLine ∧
      (∀ t ∈ s.run, t.kind = .value → f.startLine ≤ t.startLine ∧ t.stopLine ≤ f.stopLine) ∧
      ∀ g ∈ valueFolds ts, g.startLine = s.token.startLine → g = f := by
  obtain ⟨f, hfold⟩ := Option.isSome_iff_exists.1 (s.fold?_isSome.trans hcontinued)
  have hf : f ∈ valueFolds ts := mem_valueFolds_iff_spot.2 ⟨s, hs, hfold⟩
  have hfolded := Spot.foldedBy_of_fold? hts hs hfold
  refine ⟨f, hf, hfolded.start, fun t ht hvalue => ⟨?_, hfolded.holds t ht hvalue⟩,
    fun g hg hstart => eq_of_startLine_eq hts hg hf (hstart.trans hfolded.start.symm)⟩
  obtain ⟨rfl, -⟩ := mem_spotsOf.1 hs
  have habove : s.token.Above t := hts.above_of_mem ((List.takeWhile_sublist _).mem ht)
  have hone := hts.oneLine s.token (by simp)
  have hle := habove.stopLine_le
  have hstart := hfolded.start
  omega

/-- **The folds of values, and the directives they belong to.** There is one fold for each
assignment whose value goes on over later lines, in order, and it is what the spot of the
assignment says; nesting leaves the folds found as they are. So each directive with a range
around its value that ends below its assignment has just one fold that starts at the
assignment, and all lines of the value are in it. -/
theorem value_folds_exact (mark : List Char → Marker) (d : Dialect) (text : String) :
    List.Forall₂ Spot.FoldedBy (continuedSpots (tokenize d text).tokens)
      (folds mark .onlyValues (tokenize d text).tokens) ∧
    folds mark .onlyValues (tokenize d text).tokens = valueFolds (tokenize d text).tokens ∧
    ∀ withIncomplete, ∀ v ∈ directives (tokenize d text).tokens withIncomplete, ∀ r,
      v.valueRange = some r →
      ∃ front key assignment rest,
        (tokenize d text).tokens = front ++ key :: assignment :: rest ∧ key.kind = .key ∧
        v.keyRange = key.range ∧ assignment.kind = .assignment ∧
        (assignment.startLine < r.stop.line →
          ∃ f ∈ folds mark .onlyValues (tokenize d text).tokens,
            f.startLine = assignment.startLine ∧
            (∀ q ∈ v.valueRanges, f.startLine ≤ q.start.line ∧ q.stop.line ≤ f.stopLine) ∧
            ∀ g ∈ folds mark .onlyValues (tokenize d text).tokens,
              g.startLine = assignment.startLine → g = f) := by
  have h := tokenize_inText d text
  have hfolds := folds_onlyValues mark h.inLines
  refine ⟨hfolds ▸ forall₂_valueFolds h.inLines, hfolds, fun withIncomplete v hv r hr => ?_⟩
  rw [hfolds]
  have hv' := (directives_sublist _ _).mem hv
  rw [directives_true] at hv'
  obtain ⟨k, hk, rfl⟩ := List.mem_map.1 hv'
  obtain ⟨a, ha, hts, hlines, last, hlast, hvalue, hstop⟩ := k.exists_assignment h hk hr
  obtain ⟨hsplit, hkind⟩ := mem_spotsOf.1 ha
  refine ⟨k.front, k.token, a.token, a.behind, hts, (mem_spotsOf.1 hk).2, k.directive_keyRange,
    hkind, fun hlt => ?_⟩
  have hcontinued : a.isContinued = true := by
    have hone := (h.inLines.behind hsplit).oneLine last ((List.takeWhile_sublist _).mem hlast)
    unfold Token.stopLine at hone
    rw [hstop] at hone
    refine List.any_eq_true.2 ⟨last, hlast, ?_⟩
    simp only [hvalue, beq_self_eq_true, Bool.true_and, decide_eq_true_eq]
    omega
  obtain ⟨f, hf, hstart, hholds, hunique⟩ := exists_fold_of_continued h.inLines ha hcontinued
  refine ⟨f, hf, hstart, fun q hq => ?_, hunique⟩
  obtain ⟨t, ht, hline, rfl⟩ := hlines q hq
  exact hholds t ht hline

/-- The comment among the lines of the value is in its fold. The one at the start of its
line is not, though no other token is between it and the value. -/
theorem value_folds_exact_commented :
    (∃ v ∈ directives (tokenize .mkosi "A=\n x\n # c\n y\n# d\nB=z").tokens false,
      v.key = "A" ∧ v.valueRange = some ⟨⟨4, 1, 1⟩, ⟨13, 3, 2⟩⟩ ∧
      ∃ f ∈ folds Marker.ofComment .onlyValues
          (tokenize .mkosi "A=\n x\n # c\n y\n# d\nB=z").tokens,
        f.startLine = 0 ∧
        (∀ q ∈ v.valueRanges, f.startLine ≤ q.start.line ∧ q.stop.line ≤ f.stopLine) ∧
        ∀ g ∈ folds Marker.ofComment .onlyValues
            (tokenize .mkosi "A=\n x\n # c\n y\n# d\nB=z").tokens,
          g.startLine = 0 → g = f) ∧
    folds Marker.ofComment .onlyValues (tokenize .mkosi "A=\n x\n # c\n y\n# d\nB=z").tokens =
      [⟨0, 3, none⟩] := by
  obtain ⟨-, hfolds, hdirectives⟩ :=
    value_folds_exact Marker.ofComment .mkosi "A=\n x\n # c\n y\n# d\nB=z"
  have hdirective : ⟨none, "A", ⟨⟨0, 0, 0⟩, ⟨1, 0, 1⟩⟩, some "xy",
        [⟨⟨4, 1, 1⟩, ⟨5, 1, 2⟩⟩, ⟨⟨12, 3, 1⟩, ⟨13, 3, 2⟩⟩]⟩ ∈
      directives (tokenize .mkosi "A=\n x\n # c\n y\n# d\nB=z").tokens false := by decide +kernel
  obtain ⟨front, key, assignment, rest, htokens, -, hrange, -, hfold⟩ :=
    hdirectives false _ hdirective ⟨⟨4, 1, 1⟩, ⟨13, 3, 2⟩⟩ (by decide +kernel)
  -- the key is the first token, so the assignment is the second one
  have hspot : (⟨front, key, assignment :: rest⟩ : Spot) =
      ⟨[], ⟨.key, ⟨⟨0, 0, 0⟩, ⟨1, 0, 1⟩⟩, "A"⟩,
        ⟨.assignment, ⟨⟨1, 0, 1⟩, ⟨2, 0, 2⟩⟩, "="⟩ ::
          (tokenize .mkosi "A=\n x\n # c\n y\n# d\nB=z").tokens.drop 2⟩ :=
    (tokenize_inText _ _).spot_eq htokens (by decide +kernel) hrange.symm
  obtain ⟨-, -, hbehind⟩ := Spot.mk.inj hspot
  obtain ⟨rfl, -⟩ := List.cons.inj hbehind
  exact ⟨⟨_, hdirective, rfl, by decide +kernel, hfold (by decide)⟩,
    hfolds.trans (by decide +kernel)⟩

end UnitFile
