import Mathlib.Data.List.DropRight
import UnitFile.Proofs.LineOrder
import UnitFile.Proofs.Nesting
/-!
# Value folds and section folds

A value folds from its assignment to its last line, indented comments included, and a
section from its header to its last token that is no comment. The two families are
nested together. No fold of a section is lost in that (`mem_folds_of_section`). A fold
of a value is lost in one case, where it overhangs its section (`Overhangs`): the value
is the last thing of the section and goes on in an indented comment, which the fold of
the section leaves out.

A fold spans the lines from a token, its anchor, to one of the tokens behind it
(`Spans`). If it crosses another fold, the anchor of that one is among those tokens
(`within_of_crosses`). Behind an assignment only values and comments are, and behind a
header everything but headers, so only the fold of a section can cross another fold, and
only one of a value.
-/

namespace UnitFile

open Lexer Text Grammar

/-- The families of values and sections alone. -/
def FoldOptions.withoutComments : FoldOptions :=
  { comments := false, regions := false, values := true, sections := true }

/-- Whether the value with given tokens behind its assignment ends in a comment, with
nothing but comments behind it in its section. -/
def endsInComment (after : List Token) : Bool :=
  (valueBody after).getLast?.any (·.kind == .comment) &&
    (after.dropWhile Token.isValueOrComment).head?.all (·.kind == .header)

/-- **The fold of a value that goes on below its section**: there is a header above the
assignment, and the value is the last of its section and ends in a comment. -/
def Overhangs (tokens : List Token) (f : Fold) : Prop :=
  ∃ before assignment after, tokens = before ++ assignment :: after ∧
    assignment.kind = .assignment ∧ valueFold? assignment.startLine after = some f ∧
    (∃ header ∈ before, header.kind = .header) ∧ endsInComment after = true

/-! ## Folds and their anchors -/

/-- A fold that starts at a token and ends at one of those that follow as long as `p`
holds. -/
structure Spans (p : Token → Bool) (anchor : Token) (after : List Token) (f : Fold) : Prop where
  start : f.startLine = anchor.startLine
  stop : ∃ t ∈ anchor :: after.takeWhile p, f.stopLine = t.stopLine

variable {ts before after front behind : List Token} {anchor other header assignment t u : Token}
variable {p : Token → Bool} {f k : Fold}

/-- What is taken up to the first token that fails does not reach a token that it cannot
pass to. -/
theorem takeWhile_sublist_front {between : List Token}
    (hnot : ¬ ∀ t ∈ between ++ [other], p t = true) (after : List Token) :
    ((between ++ other :: after).takeWhile p).Sublist between := by
  induction between with
  | nil =>
    have hother : ¬ p other = true := by simpa using hnot
    rw [List.nil_append, List.takeWhile_cons_of_neg hother]
  | cons t between ih =>
    rw [List.cons_append, List.takeWhile_cons]
    split
    · rename_i ht
      refine List.Sublist.cons_cons t (ih fun hall => hnot fun u hu => ?_)
      rcases List.mem_cons.1 hu with rfl | hu
      · exact ht
      · exact hall u hu
    · exact List.nil_sublist _

/-- **A fold crosses only folds that are anchored among its own tokens.** -/
theorem within_of_crosses (hts : InLines ts) (hk : ts = front ++ anchor :: behind)
    (hf : ts = before ++ other :: after) (hspans : Spans p anchor behind k)
    (hstart : f.startLine = other.startLine) (hcrosses : k.Crosses f) :
    ∃ between, behind = between ++ other :: after ∧ ∀ t ∈ between ++ [other], p t = true := by
  obtain ⟨hlt, hinside, -⟩ := hcrosses
  rw [hspans.start, hstart] at hlt
  rw [hstart] at hinside
  -- the other anchor is on a line below, so it comes behind
  obtain ⟨between, rfl⟩ : ∃ between, behind = between ++ other :: after := by
    have hsplit := hk.symm.trans hf
    rcases List.append_eq_append_iff.1 hsplit with ⟨more, rfl, hrest⟩ | ⟨more, rfl, hrest⟩
    · cases more with
      | nil =>
        obtain ⟨rfl, -⟩ := List.cons.inj hrest
        omega
      | cons t more => exact ⟨more, (List.cons.inj hrest).2⟩
    · cases more with
      | nil =>
        obtain ⟨rfl, -⟩ := List.cons.inj hrest
        omega
      | cons t more =>
        obtain ⟨rfl, rfl⟩ := List.cons.inj hrest
        have habove : other.Above anchor := by
          rw [hf] at hts
          exact hts.above_of_mem (by simp)
        have hone := hts.oneLine other (by rw [hf]; simp)
        have hle := habove.stopLine_le
        omega
  refine ⟨between, rfl, ?_⟩
  by_contra hnot
  -- otherwise all tokens of the fold come before the other anchor
  have hfront := (takeWhile_sublist_front hnot after).cons_cons anchor
  obtain ⟨t, ht, hstop⟩ := hspans.stop
  have habove : t.Above other := by
    have hsplit : ts = (front ++ anchor :: between) ++ other :: after := by simp [hk]
    rw [hsplit] at hts
    exact hts.above_of_mem_front (List.mem_append_right _ (hfront.mem ht))
  have hle := habove.stopLine_le
  omega

/-! ## The two families -/

/-- Folds that are found token by token, each from a token and those behind it. -/
theorem mem_folds_iff_split {found : List Token → List Fold}
    {foundAt : Token → List Token → List Fold} (hnil : found [] = [])
    (hcons : ∀ t ts, found (t :: ts) = foundAt t ts ++ found ts) :
    f ∈ found ts ↔ ∃ before t after, ts = before ++ t :: after ∧ f ∈ foundAt t after := by
  induction ts with
  | nil => simp [hnil]
  | cons t ts ih =>
    rw [hcons, List.mem_append, ih]
    constructor
    · rintro (hmem | ⟨before, u, after, rfl, hmem⟩)
      · exact ⟨[], t, ts, rfl, hmem⟩
      · exact ⟨t :: before, u, after, rfl, hmem⟩
    · rintro ⟨before, u, after, hsplit, hmem⟩
      cases before with
      | nil =>
        obtain ⟨rfl, rfl⟩ := List.cons.inj hsplit
        exact Or.inl hmem
      | cons v before => exact Or.inr ⟨before, u, after, (List.cons.inj hsplit).2, hmem⟩

theorem mem_valueFolds_iff :
    f ∈ valueFolds ts ↔ ∃ before assignment after, ts = before ++ assignment :: after ∧
      assignment.kind = .assignment ∧ valueFold? assignment.startLine after = some f := by
  rw [mem_folds_iff_split rfl fun _ _ => rfl]
  simp only [List.mem_ite_nil_right, Option.mem_toList]

theorem mem_sectionFolds_iff :
    f ∈ sectionFolds ts ↔ ∃ before header after, ts = before ++ header :: after ∧
      header.kind = .header ∧ f = sectionFold header after := by
  rw [mem_folds_iff_split rfl fun _ _ => rfl]
  simp only [List.mem_ite_nil_right, List.mem_singleton]

/-- The lines of a value are those that follow its assignment, without some comments at
the end. -/
theorem exists_detached (after : List Token) :
    ∃ detached, after.takeWhile Token.isValueOrComment = valueBody after ++ detached ∧
      ∀ t ∈ detached, t.kind = .comment := by
  refine ⟨(after.takeWhile Token.isValueOrComment).rtakeWhile Token.isDetachedComment,
    List.rdropWhile_append_rtakeWhile.symm, fun t ht => ?_⟩
  have hdetached := List.mem_rtakeWhile_imp ht
  simp only [Token.isDetachedComment, Bool.and_eq_true, beq_iff_eq] at hdetached
  exact hdetached.1

/-- **How a value lies behind its assignment**: its lines up to the last one of its
fold, comments that are detached from it, and the rest, which begins with neither a value
nor a comment. -/
structure ValueLines (line : Nat) (after : List Token) (f : Fold) (init : List Token)
    (last : Token) (detached rest : List Token) : Prop where
  split : after = init ++ last :: (detached ++ rest)
  run : ∀ t ∈ init ++ last :: detached, t.isValueOrComment = true
  comments : ∀ t ∈ detached, t.kind = .comment
  behind : ∀ t ∈ rest.head?, t.isValueOrComment = false
  fold : f = ⟨line, last.stopLine, none⟩
  continued : ∃ v ∈ init ++ [last], v.kind = .value ∧ line < v.startLine
  ends_iff : endsInComment after = true ↔
    last.kind = .comment ∧ ∀ t ∈ rest.head?, t.kind = .header

theorem exists_valueLines {line : Nat} (h : valueFold? line after = some f) :
    ∃ init last detached rest, ValueLines line after f init last detached rest := by
  unfold valueFold? at h
  dsimp only at h
  split at h
  · rename_i hany
    obtain ⟨last, hlast, rfl⟩ := Option.map_eq_some_iff.1 h
    obtain ⟨v, hv, hvalue⟩ := List.any_eq_true.1 hany
    obtain ⟨init, hbody⟩ := List.getLast?_eq_some_iff.1 hlast
    simp only [Bool.and_eq_true, beq_iff_eq, decide_eq_true_eq] at hvalue
    obtain ⟨detached, hrun, hcomments⟩ := exists_detached after
    rw [hbody, List.append_assoc, List.singleton_append] at hrun
    refine ⟨init, last, detached, after.dropWhile Token.isValueOrComment, ?_, ?_, hcomments, ?_, rfl,
      ⟨v, hbody ▸ hv, hvalue⟩, ?_⟩
    · rw [← List.cons_append, ← List.append_assoc, ← hrun, List.takeWhile_append_dropWhile]
    · intro t ht
      rw [← hrun] at ht
      exact List.mem_takeWhile_imp ht
    · intro t ht
      have hhead := List.head?_dropWhile_not Token.isValueOrComment after
      rw [Option.mem_def.1 ht] at hhead
      exact hhead
    · simp [endsInComment, hlast, Option.all_eq_true]
  · simp at h

theorem spans_value (h : valueFold? assignment.startLine after = some f) :
    Spans Token.isValueOrComment assignment after f := by
  obtain ⟨init, last, detached, rest, hv⟩ := exists_valueLines h
  refine ⟨by rw [hv.fold], last, List.mem_cons_of_mem _ ?_, by rw [hv.fold]⟩
  have hsplit : after = (init ++ last :: detached) ++ rest := by simp [hv.split]
  rw [hsplit, List.takeWhile_append_of_pos hv.run]
  simp

/-- The fold of a section ends at its header or at a token of it that is no comment. -/
theorem exists_sectionStop (header : Token) (after : List Token) :
    ∃ t ∈ header :: (after.takeWhile (·.kind != .header)).filter (·.kind != .comment),
      (sectionFold header after).stopLine = t.stopLine := by
  unfold sectionFold
  dsimp only
  cases hlast : ((after.takeWhile (·.kind != .header)).filter (·.kind != .comment)).getLast? with
  | none => exact ⟨header, List.mem_cons_self, by simp⟩
  | some t => exact ⟨t, List.mem_cons_of_mem _ (List.mem_of_getLast? hlast), by simp⟩

theorem spans_section (header : Token) (after : List Token) :
    Spans (·.kind != .header) header after (sectionFold header after) := by
  obtain ⟨t, ht, hstop⟩ := exists_sectionStop header after
  exact ⟨rfl, t, (List.filter_sublist.cons_cons header).mem ht, hstop⟩

/-- No token of a section that is no comment is below its fold. -/
theorem stopLine_le_section (hts : InLines (header :: after))
    (ht : t ∈ after.takeWhile (·.kind != .header)) (hk : t.kind ≠ .comment) :
    t.stopLine ≤ (sectionFold header after).stopLine := by
  have hmem : t ∈ (after.takeWhile (·.kind != .header)).filter (·.kind != .comment) :=
    List.mem_filter.2 ⟨ht, by simpa using hk⟩
  have hsub : ((after.takeWhile (·.kind != .header)).filter (·.kind != .comment)).Sublist
      (header :: after) :=
    (List.filter_sublist.trans (List.takeWhile_sublist _)).trans (List.sublist_cons_self _ _)
  have hpairwise := hts.pairwise.sublist hsub
  unfold sectionFold
  dsimp only
  rcases List.eq_nil_or_concat
      ((after.takeWhile (·.kind != .header)).filter (·.kind != .comment)) with hnil | ⟨init, u, hu⟩
  · rw [hnil] at hmem
    simp at hmem
  · rw [List.concat_eq_append] at hu
    rw [hu] at hmem hpairwise hsub ⊢
    rw [List.getLast?_concat, Option.getD_some]
    rcases List.mem_append.1 hmem with hmem | hmem
    · have habove := (List.pairwise_append.1 hpairwise).2.2 t hmem u (by simp)
      have hone := hts.oneLine u (hsub.mem (by simp))
      have hle := habove.stopLine_le
      omega
    · rw [List.mem_singleton.1 hmem]

/-! ## A value in its section -/

section Value

variable {between init detached rest : List Token} {last : Token}
variable (hts : InLines (header :: (between ++ assignment :: after)))
  (hheader : header.kind = .header) (hbetween : ∀ t ∈ between, t.kind ≠ .header)
  (ha : assignment.kind = .assignment)
  (hv : ValueLines assignment.startLine after f init last detached rest)

include hbetween ha hv in
/-- What a section holds that the value is in: the value, and what comes behind it up to
the next header. -/
theorem ValueLines.takeWhile_section :
    (between ++ assignment :: after).takeWhile (·.kind != .header) =
      between ++ assignment :: (init ++ last :: detached) ++
        rest.takeWhile (·.kind != .header) := by
  have hfront : ∀ t ∈ between ++ assignment :: (init ++ last :: detached),
      (t.kind != .header) = true := by
    intro t ht
    rcases List.mem_append.1 ht with ht | ht
    · simpa using hbetween t ht
    rcases List.mem_cons.1 ht with rfl | ht
    · simp [ha]
    · have hrun := hv.run t ht
      rcases Bool.or_eq_true_iff.1 hrun with hk | hk <;> simp_all
  rw [← List.takeWhile_append_of_pos hfront, hv.split]
  simp

include hts hheader in
theorem header_lt : header.startLine < assignment.startLine := by
  have habove : header.Above assignment :=
    (List.pairwise_cons.1 hts.pairwise).1 assignment (by simp)
  have hone := hts.oneLine header List.mem_cons_self
  have hbelow := habove.stopLine_lt (by rw [hheader]; exact Kind.header_leadsTo _)
  omega

include hts hbetween ha hv

/-- The fold of a section goes on below the assignment of a value in it. -/
theorem ValueLines.lt_section :
    assignment.startLine < (sectionFold header (between ++ assignment :: after)).stopLine := by
  obtain ⟨v, hmem, hvalue, hlt⟩ := hv.continued
  have hin : v ∈ (between ++ assignment :: after).takeWhile (·.kind != .header) := by
    rw [hv.takeWhile_section hbetween ha]
    simp only [List.mem_append, List.mem_cons] at hmem ⊢
    tauto
  have hone := hts.oneLine v (List.mem_cons_of_mem _ ((List.takeWhile_sublist _).mem hin))
  have hle := stopLine_le_section hts hin (by rw [hvalue]; decide)
  omega

/-- **A value that ends in a value, or is followed by more of its section, is within the
fold of the section.** -/
theorem ValueLines.stopLine_le (hends : endsInComment after = false) :
    f.stopLine ≤ (sectionFold header (between ++ assignment :: after)).stopLine := by
  have hsection := hv.takeWhile_section hbetween ha
  have hstop : f.stopLine = last.stopLine := by rw [hv.fold]
  by_cases hk : last.kind = .comment
  · -- the token behind the run is of the section, and not above the last comment
    obtain ⟨u, hu, hne⟩ : ∃ u ∈ rest.head?, u.kind ≠ .header := by
      by_contra hnone
      have hall := hv.ends_iff.2 ⟨hk, fun t ht => by
        by_contra hne
        exact hnone ⟨t, ht, hne⟩⟩
      rw [hends] at hall
      contradiction
    obtain ⟨more, rfl⟩ := List.head?_eq_some_iff.1 hu
    have hcode : u.kind ≠ .comment := by
      intro hcomment
      have hnot := hv.behind u hu
      simp [Token.isValueOrComment, hcomment] at hnot
    have hin : u ∈ (between ++ assignment :: after).takeWhile (·.kind != .header) := by
      rw [hsection, List.takeWhile_cons_of_pos (by simpa using hne)]
      simp
    have habove : last.Above u := by
      rw [hv.split] at hts
      have hfront : header :: (between ++ assignment :: (init ++ last :: (detached ++ u :: more))) =
          (header :: (between ++ assignment :: init)) ++ last :: (detached ++ u :: more) := by
        simp
      rw [hfront] at hts
      exact hts.above_of_mem (by simp)
    have hone := hts.oneLine u (List.mem_cons_of_mem _ ((List.takeWhile_sublist _).mem hin))
    have hlast_le := habove.stopLine_le
    have hle := stopLine_le_section hts hin hcode
    omega
  · rw [hstop]
    refine stopLine_le_section hts ?_ hk
    rw [hsection]
    simp

/-- **A value that is the last of its section and ends in a comment goes on below the fold
of the section.** -/
theorem ValueLines.section_lt (hheader : header.kind = .header) (hends : endsInComment after = true) :
    (sectionFold header (between ++ assignment :: after)).stopLine < f.stopLine := by
  obtain ⟨hk, hnext⟩ := hv.ends_iff.1 hends
  have hrest : rest.takeWhile (·.kind != .header) = [] := by
    cases rest with
    | nil => rfl
    | cons u rest => exact List.takeWhile_cons_of_neg (by simp [hnext u rfl])
  obtain ⟨t, ht, hstop⟩ := exists_sectionStop header (between ++ assignment :: after)
  rw [hv.takeWhile_section hbetween ha, hrest, List.append_nil] at ht
  have hcode : t.kind ≠ .comment := by
    rcases List.mem_cons.1 ht with rfl | ht
    · rw [hheader]
      decide
    · simpa using (List.mem_filter.1 ht).2
  -- the token that ends the section comes before the last comment, and so above it
  have hfront : t ∈ header :: (between ++ assignment :: init) := by
    have hmem := (List.filter_sublist.cons_cons header).mem ht
    simp only [List.mem_cons, List.mem_append] at hmem ⊢
    have hnot : t ∉ detached := fun hdet => hcode (hv.comments t hdet)
    have hlast : t ≠ last := fun heq => hcode (heq ▸ hk)
    tauto
  have habove : t.Above last := by
    rw [hv.split] at hts
    have hsplit : header :: (between ++ assignment :: (init ++ last :: (detached ++ rest))) =
        (header :: (between ++ assignment :: init)) ++ last :: (detached ++ rest) := by simp
    rw [hsplit] at hts
    exact hts.above_of_mem_front hfront
  have hbelow := habove.stopLine_lt (by rw [hk]; exact Kind.leadsTo_comment _)
  have hone := hts.oneLine last (by rw [hv.split]; simp)
  rw [hstop, hv.fold]
  show t.stopLine < last.stopLine
  omega

end Value

/-! ## Both families together -/

variable {mark : List Char → Marker}

theorem mem_candidates_iff :
    f ∈ foldCandidates mark .withoutComments ts ↔
      (f ∈ valueFolds ts ∨ f ∈ sectionFolds ts) ∧ f.isMultiline = true := by
  simp [foldCandidates, FoldOptions.withoutComments, List.mem_filter, or_and_right]

theorem kind_eq_none (h : f ∈ foldCandidates mark .withoutComments ts) : f.kind = none := by
  rcases (mem_candidates_iff.1 h).1 with hf | hf
  · obtain ⟨before, assignment, after, -, -, hvalue⟩ := mem_valueFolds_iff.1 hf
    obtain ⟨init, last, detached, rest, hv⟩ := exists_valueLines hvalue
    rw [hv.fold]
  · obtain ⟨before, header, after, -, -, rfl⟩ := mem_sectionFolds_iff.1 hf
    rfl

/-- **A fold of one of the families is lost only if a fold that is kept crosses it.** -/
theorem mem_folds_or_crosses (h : f ∈ foldCandidates mark .withoutComments ts) :
    f ∈ folds mark .withoutComments ts ∨ ∃ k ∈ folds mark .withoutComments ts, k.Crosses f := by
  -- a fold over the same lines is the same fold here, since no fold has a kind
  obtain ⟨g, hg, hsame⟩ := exists_sameLines_ordered h (lt_of_mem_foldCandidates h)
  have heq : f = g := by
    have hkind := (kind_eq_none h).trans (kind_eq_none (mem_of_mem_ordered hg)).symm
    obtain ⟨hstart, hstop⟩ := Fold.sameLines_iff.1 hsame
    cases f
    cases g
    simp_all
  subst heq
  by_cases hmem : f ∈ folds mark .withoutComments ts
  · exact Or.inl hmem
  · exact Or.inr (exists_crosses_of_notMem hg hmem)

/-- **Only the fold of a section crosses anything**, and that only a value in it. -/
theorem exists_section_of_crosses (hts : InLines ts) (hk : k ∈ folds mark .withoutComments ts)
    (hf : ts = before ++ other :: after) (hother : other.isValueOrComment = false)
    (hstart : f.startLine = other.startLine) (hcrosses : k.Crosses f) :
    ∃ front header between, ts = front ++ header :: (between ++ other :: after) ∧
      header.kind = .header ∧ (∀ t ∈ between ++ [other], t.kind ≠ .header) ∧
      k = sectionFold header (between ++ other :: after) := by
  have hcandidate := mem_of_mem_ordered ((folds_sublist mark .withoutComments ts).mem hk)
  rcases (mem_candidates_iff.1 hcandidate).1 with hvalue | hsection
  · obtain ⟨front, assignment, behind, hsplit, -, hvalue⟩ := mem_valueFolds_iff.1 hvalue
    obtain ⟨between, -, hall⟩ :=
      within_of_crosses hts hsplit hf (spans_value hvalue) hstart hcrosses
    have hin := hall other (by simp)
    rw [hother] at hin
    contradiction
  · obtain ⟨front, header, behind, hsplit, hheader, rfl⟩ := mem_sectionFolds_iff.1 hsection
    obtain ⟨between, rfl, hall⟩ :=
      within_of_crosses hts hsplit hf (spans_section header behind) hstart hcrosses
    exact ⟨front, header, between, hsplit, hheader, fun t ht => by simpa using hall t ht, rfl⟩

/-- **No fold of a section is lost.** -/
theorem mem_folds_of_section (hts : InLines ts) (hf : f ∈ sectionFolds ts)
    (hmulti : f.isMultiline = true) : f ∈ folds mark .withoutComments ts := by
  obtain ⟨before, header, after, hsplit, hheader, rfl⟩ := mem_sectionFolds_iff.1 hf
  rcases mem_folds_or_crosses (mem_candidates_iff.2 ⟨Or.inr hf, hmulti⟩) with hmem |
    ⟨k, hk, hcrosses⟩
  · exact hmem
  · have hnot : header.isValueOrComment = false := by simp [Token.isValueOrComment, hheader]
    obtain ⟨front, above, between, -, -, hall, -⟩ :=
      exists_section_of_crosses hts hk hsplit hnot rfl hcrosses
    exact absurd hheader (hall header (by simp))

theorem exists_last_header (h : ∃ t ∈ ts, t.kind = .header) :
    ∃ front header between, ts = front ++ header :: between ∧ header.kind = .header ∧
      ∀ t ∈ between, t.kind ≠ .header := by
  induction ts with
  | nil => simp at h
  | cons t ts ih =>
    by_cases hmore : ∃ u ∈ ts, u.kind = .header
    · obtain ⟨front, header, between, rfl, hheader⟩ := ih hmore
      exact ⟨t :: front, header, between, rfl, hheader⟩
    · obtain ⟨u, hu, hk⟩ := h
      rcases List.mem_cons.1 hu with rfl | hu
      · exact ⟨[], u, ts, rfl, hk, fun v hv hheader => hmore ⟨v, hv, hheader⟩⟩
      · exact absurd ⟨u, hu, hk⟩ hmore

/-- **The fold of a value that overhangs its section is lost**, since the fold of the
section is kept and crosses it. -/
theorem notMem_folds_of_overhangs (hts : InLines ts) (h : Overhangs ts f) :
    f ∉ folds mark .withoutComments ts := by
  obtain ⟨before, assignment, after, rfl, ha, hf, hheaders, hends⟩ := h
  obtain ⟨front, header, between, rfl, hheader, hbetween⟩ := exists_last_header hheaders
  rw [List.append_assoc, List.cons_append] at hts ⊢
  obtain ⟨init, last, detached, rest, hv⟩ := exists_valueLines hf
  have hsection := hts.of_append_right
  have hcrosses : (sectionFold header (between ++ assignment :: after)).Crosses f := by
    refine ⟨?_, ?_, hv.section_lt hsection hbetween ha hheader hends⟩
    · rw [hv.fold]
      exact header_lt hsection hheader
    · rw [hv.fold]
      exact hv.lt_section hsection hbetween ha
  have hmulti : (sectionFold header (between ++ assignment :: after)).isMultiline = true := by
    have hlt := hcrosses.1.trans hcrosses.2.1
    simpa [Fold.isMultiline] using hlt
  intro hmem
  refine not_crosses_of_mem (mem_folds_of_section hts ?_ hmulti) hmem hcrosses
  exact mem_sectionFolds_iff.2 ⟨front, header, _, rfl, hheader, rfl⟩

/-- **And no other fold of a value is.** -/
theorem mem_folds_of_not_overhangs (hts : InLines ts) (hf : f ∈ valueFolds ts)
    (hmulti : f.isMultiline = true) (h : ¬ Overhangs ts f) :
    f ∈ folds mark .withoutComments ts := by
  obtain ⟨before, assignment, after, hsplit, ha, hvalue⟩ := mem_valueFolds_iff.1 hf
  rcases mem_folds_or_crosses (mem_candidates_iff.2 ⟨Or.inl hf, hmulti⟩) with hmem |
    ⟨k, hk, hcrosses⟩
  · exact hmem
  · obtain ⟨init, last, detached, rest, hv⟩ := exists_valueLines hvalue
    have hnot : assignment.isValueOrComment = false := by simp [Token.isValueOrComment, ha]
    obtain ⟨front, header, between, hts', hheader, hall, rfl⟩ :=
      exists_section_of_crosses hts hk hsplit hnot (by rw [hv.fold]) hcrosses
    refine absurd ⟨before, assignment, after, hsplit, ha, hvalue, ?_, ?_⟩ h
    · -- the header that crosses the value is above its assignment
      have hbefore : before = front ++ header :: between := by
        refine (List.append_left_inj (assignment :: after)).1 ?_
        rw [← hsplit, hts']
        simp
      exact ⟨header, by simp [hbefore], hheader⟩
    · by_contra hends
      rw [hts'] at hts
      have hle := hv.stopLine_le hts.of_append_right
        (fun t ht => hall t (List.mem_append_left _ ht)) ha (by simpa using hends)
      have hlt := hcrosses.2.2
      omega

/-- **What becomes of values and sections that are folded together.** For every text, no
fold of a section is lost, and the fold of a value is lost just when it overhangs its
section. A value under a header begins below it, and is within the fold of that section
unless it is the last thing of the section and ends in a comment. -/
theorem value_and_section_folds_kept (mark : List Char → Marker) (d : Dialect) (text : String) :
    (∀ f ∈ sectionFolds (tokenize d text).tokens, f.isMultiline = true →
      f ∈ folds mark .withoutComments (tokenize d text).tokens) ∧
    (∀ f ∈ valueFolds (tokenize d text).tokens, f.isMultiline = true →
      (f ∈ folds mark .withoutComments (tokenize d text).tokens ↔
        ¬ Overhangs (tokenize d text).tokens f)) ∧
    ∀ front header between assignment after f,
      (tokenize d text).tokens = front ++ header :: (between ++ assignment :: after) →
      header.kind = .header → (∀ t ∈ between, t.kind ≠ .header) →
      assignment.kind = .assignment → valueFold? assignment.startLine after = some f →
      (sectionFold header (between ++ assignment :: after)).startLine < f.startLine ∧
        (f.stopLine ≤ (sectionFold header (between ++ assignment :: after)).stopLine ↔
          endsInComment after = false) := by
  have hts := tokenize_inLines d text
  refine ⟨fun f hf hmulti => mem_folds_of_section hts hf hmulti, fun f hf hmulti => ⟨?_, ?_⟩, ?_⟩
  · exact fun hmem hover => notMem_folds_of_overhangs hts hover hmem
  · exact mem_folds_of_not_overhangs hts hf hmulti
  · intro front header between assignment after f hsplit hheader hbetween ha hf
    obtain ⟨init, last, detached, rest, hv⟩ := exists_valueLines hf
    rw [hsplit] at hts
    have hsection := hts.of_append_right
    refine ⟨?_, fun hle => ?_, hv.stopLine_le hsection hbetween ha⟩
    · rw [hv.fold]
      exact header_lt hsection hheader
    · by_contra hends
      have hlt := hv.section_lt hsection hbetween ha hheader (by simpa using hends)
      omega

/-- The comment below the last value of a section belongs to the value and not to the
section. With it the fold of the value is lost, and with a key behind it the value is
within the fold of the section. -/
theorem value_and_section_folds_kept_comment :
    ⟨0, 2, none⟩ ∈
      folds Marker.ofComment .withoutComments (tokenize .mkosi "[S]\nK=\n a\n # c").tokens ∧
    ⟨1, 3, none⟩ ∉
      folds Marker.ofComment .withoutComments (tokenize .mkosi "[S]\nK=\n a\n # c").tokens ∧
    3 ≤ (sectionFold ⟨.header, ⟨⟨0, 0, 0⟩, ⟨3, 0, 3⟩⟩, "[S]"⟩
      ((tokenize .mkosi "[S]\nK=\n a\n # c\nX").tokens.drop 1)).stopLine := by
  obtain ⟨hsection, hvalue, -⟩ :=
    value_and_section_folds_kept Marker.ofComment .mkosi "[S]\nK=\n a\n # c"
  obtain ⟨-, -, hwithin⟩ :=
    value_and_section_folds_kept Marker.ofComment .mkosi "[S]\nK=\n a\n # c\nX"
  refine ⟨hsection ⟨0, 2, none⟩ (by decide +kernel) rfl, fun hmem => ?_, ?_⟩
  · refine (hvalue ⟨1, 3, none⟩ (by decide +kernel) rfl).1 hmem ?_
    exact ⟨(tokenize .mkosi "[S]\nK=\n a\n # c").tokens.take 2,
      ⟨.assignment, ⟨⟨5, 1, 1⟩, ⟨6, 1, 2⟩⟩, "="⟩,
      (tokenize .mkosi "[S]\nK=\n a\n # c").tokens.drop 3,
      by decide +kernel, rfl, by decide +kernel, by decide +kernel, by decide +kernel⟩
  · exact (hwithin [] ⟨.header, ⟨⟨0, 0, 0⟩, ⟨3, 0, 3⟩⟩, "[S]"⟩
      [⟨.key, ⟨⟨4, 1, 0⟩, ⟨5, 1, 1⟩⟩, "K"⟩] ⟨.assignment, ⟨⟨5, 1, 1⟩, ⟨6, 1, 2⟩⟩, "="⟩
      ((tokenize .mkosi "[S]\nK=\n a\n # c\nX").tokens.drop 3) ⟨1, 3, none⟩
      (by decide +kernel) rfl (by decide +kernel) rfl (by decide +kernel)).2.2 (by decide +kernel)

/-- **A value can lose its fold to its section.** The value goes on in an indented comment
that the fold of the section leaves out. -/
theorem value_fold_lost :
    ⟨1, 3, none⟩ ∈ valueFolds (tokenize .mkosi "[S]\nK=\n a\n # c").tokens ∧
    (⟨1, 3, none⟩ : Fold).isMultiline = true ∧
    ⟨1, 3, none⟩ ∉
      folds Marker.ofComment .withoutComments (tokenize .mkosi "[S]\nK=\n a\n # c").tokens := by
  have hkept : ⟨0, 2, none⟩ ∈
      folds Marker.ofComment .withoutComments (tokenize .mkosi "[S]\nK=\n a\n # c").tokens :=
    mem_folds_of_section (tokenize_inLines _ _) (by decide +kernel) rfl
  refine ⟨by decide +kernel, rfl, fun hmem => not_crosses_of_mem hkept hmem ?_⟩
  exact ⟨by decide, by decide, by decide⟩

end UnitFile
