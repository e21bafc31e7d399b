import Mathlib.Data.List.Destutter
import Mathlib.Data.List.TakeWhile
import UnitFile.Folding
import UnitFile.Lexer.Tokenize
/-!
# Nesting folds with a stack

Folds are nested in one pass that keeps the last lines of the folds still open on a
stack and looks at its top alone. The plain rule compares a fold with every fold kept
before it (`withoutOutrunning`). Both keep the same folds (`sweep_kept`): on the stack
the ends only grow from the top down, and a fold that is not on it any more is over
before the next fold begins (`OpenEnds`).

What the plain rule keeps is in order, no two folds of it cross, and a fold that it
drops crosses one that it keeps (`exists_crosses_of_dropped`). So folds that are apart
from one another are all kept (`folds_perm`).
-/

namespace UnitFile

namespace Fold

/-- The strict order of folds: by first line, and from long to short. -/
def Leads (f g : Fold) : Prop :=
  f.startLine < g.startLine ∨ (f.startLine = g.startLine ∧ g.stopLine < f.stopLine)

/-- A fold that begins on the lines of the fold `k`, before its last one, and ends
below it. -/
def Outruns (f k : Fold) : Prop :=
  k.startLine ≤ f.startLine ∧ f.startLine < k.stopLine ∧ k.stopLine < f.stopLine

/-- Two folds that cross: the second begins strictly within the first and ends below
it. -/
def Crosses (k f : Fold) : Prop :=
  k.startLine < f.startLine ∧ f.startLine < k.stopLine ∧ k.stopLine < f.stopLine

instance (f k : Fold) : Decidable (f.Outruns k) :=
  inferInstanceAs (Decidable (_ ∧ _))

theorem Leads.trans {f g h : Fold} (hfg : f.Leads g) (hgh : g.Leads h) : f.Leads h := by
  unfold Leads at hfg hgh ⊢
  omega

instance : IsTrans Fold Leads :=
  ⟨fun _ _ _ => Leads.trans⟩

/-- Behind a fold in the order, to outrun it is to cross it. -/
theorem Leads.crosses {k f : Fold} (h : k.Leads f) (hf : f.Outruns k) : k.Crosses f := by
  unfold Leads at h
  unfold Outruns at hf
  unfold Crosses
  omega

theorem precedes_iff {f g : Fold} :
    f.precedes g = true ↔
      f.startLine < g.startLine ∨ (f.startLine = g.startLine ∧ g.stopLine ≤ f.stopLine) := by
  simp [precedes]

theorem sameLines_iff {f g : Fold} :
    f.sameLines g = true ↔ f.startLine = g.startLine ∧ f.stopLine = g.stopLine := by
  simp [sameLines]

theorem precedes_trans (f g h : Fold) (hfg : f.precedes g = true) (hgh : g.precedes h = true) :
    f.precedes h = true := by
  rw [precedes_iff] at hfg hgh ⊢
  omega

theorem precedes_total (f g : Fold) : (f.precedes g || g.precedes f) = true := by
  rw [Bool.or_eq_true, precedes_iff, precedes_iff]
  omega

end Fold

/-! ## The plain rule -/

/-- The folds of which no one outruns a fold kept before it, `kept` at the start. -/
def withoutOutrunning (kept : List Fold) : List Fold → List Fold
  | [] => []
  | f :: fs =>
    if ∃ k ∈ kept, f.Outruns k then withoutOutrunning kept fs
    else f :: withoutOutrunning (f :: kept) fs

/-- The folds that hide anything, in order, with one fold for each stretch of lines. -/
def ordered (folds : List Fold) : List Fold :=
  ((folds.filter fun f => f.startLine < f.stopLine).mergeSort Fold.precedes).destutter
    fun f g => g.sameLines f = false

variable {opened : List Nat} {kept fs : List Fold} {f : Fold} {line : Nat}

/-- Folds are dropped only. -/
theorem withoutOutrunning_sublist (kept fs : List Fold) : (withoutOutrunning kept fs).Sublist fs := by
  induction fs generalizing kept with
  | nil => exact List.Sublist.refl _
  | cons f fs ih =>
    rw [withoutOutrunning]
    split
    · exact (ih kept).cons f
    · exact (ih (f :: kept)).cons_cons f

/-- **No fold that is kept outruns one kept before it.** -/
theorem withoutOutrunning_pairwise (kept fs : List Fold) :
    (∀ k ∈ kept, ∀ f ∈ withoutOutrunning kept fs, ¬ f.Outruns k) ∧
      (withoutOutrunning kept fs).Pairwise fun k f => ¬ f.Outruns k := by
  induction fs generalizing kept with
  | nil => exact ⟨by simp [withoutOutrunning], List.Pairwise.nil⟩
  | cons f fs ih =>
    rw [withoutOutrunning]
    split
    · exact ih kept
    · rename_i hnone
      obtain ⟨hkept, hrest⟩ := ih (f :: kept)
      refine ⟨fun k hk g hg => ?_, List.Pairwise.cons (hkept f List.mem_cons_self) hrest⟩
      rcases List.mem_cons.1 hg with rfl | hg
      · exact fun houtruns => hnone ⟨k, hk, houtruns⟩
      · exact hkept k (List.mem_cons_of_mem _ hk) g hg

/-- **A fold that is dropped crosses one that is kept**, if the folds are in order. -/
theorem exists_crosses_of_dropped (hfs : fs.Pairwise Fold.Leads)
    (hkept : ∀ k ∈ kept, ∀ f ∈ fs, k.Leads f) (hf : f ∈ fs)
    (hdropped : f ∉ withoutOutrunning kept fs) :
    ∃ k ∈ kept ++ withoutOutrunning kept fs, k.Crosses f := by
  induction fs generalizing kept with
  | nil => simp at hf
  | cons g fs ih =>
    obtain ⟨hg, hfs⟩ := List.pairwise_cons.1 hfs
    have hbelow : ∀ k ∈ kept, ∀ f ∈ fs, k.Leads f :=
      fun k hk f hf => hkept k hk f (List.mem_cons_of_mem _ hf)
    rw [withoutOutrunning] at hdropped ⊢
    split at hdropped
    · rename_i hsome
      rw [if_pos hsome]
      rcases List.mem_cons.1 hf with rfl | hf
      · obtain ⟨k, hk, houtruns⟩ := hsome
        have hleads : k.Leads f := hkept k hk f List.mem_cons_self
        exact ⟨k, List.mem_append_left _ hk, hleads.crosses houtruns⟩
      · exact ih hfs hbelow hf hdropped
    · rename_i hnone
      rw [if_neg hnone]
      simp only [List.mem_cons, not_or] at hdropped
      have hmem : f ∈ fs := (List.mem_cons.1 hf).resolve_left hdropped.1
      have hnext : ∀ k ∈ g :: kept, ∀ x ∈ fs, k.Leads x := by
        intro k hk x hx
        rcases List.mem_cons.1 hk with rfl | hk
        · exact hg x hx
        · exact hbelow k hk x hx
      obtain ⟨k, hk, hcrosses⟩ := ih hfs hnext hmem hdropped.2
      refine ⟨k, ?_, hcrosses⟩
      simp only [List.mem_append, List.mem_cons] at hk ⊢
      tauto

/-! ## The stack -/

/-- What the stack knows of the folds kept, when the pass has come to a line: its ends
only grow from the top down, they are ends of folds kept, and every fold kept that goes
on below the line has its end there. -/
structure OpenEnds (opened : List Nat) (kept : List Fold) (line : Nat) : Prop where
  growing : opened.Pairwise (· ≤ ·)
  exists_kept : ∀ stop ∈ opened, ∃ k ∈ kept, k.stopLine = stop
  begun : ∀ k ∈ kept, k.startLine ≤ line
  mem_opened : ∀ k ∈ kept, line < k.stopLine → k.stopLine ∈ opened

namespace OpenEnds

/-- Ends that have not come yet stay on the stack. -/
theorem mem_dropWhile {stop : Nat} (hstop : stop ∈ opened) (hlt : line < stop) :
    stop ∈ opened.dropWhile (· ≤ line) := by
  rw [← List.takeWhile_append_dropWhile (p := fun n => decide (n ≤ line)) (l := opened)] at hstop
  rcases List.mem_append.1 hstop with hmem | hmem
  · have hle : stop ≤ line := by simpa using List.mem_takeWhile_imp hmem
    omega
  · exact hmem

/-- Popping leaves the ends that have not come yet. -/
theorem lt_of_mem_dropWhile (h : opened.Pairwise (· ≤ ·)) {stop : Nat}
    (hstop : stop ∈ opened.dropWhile (· ≤ line)) : line < stop := by
  induction opened with
  | nil => simp at hstop
  | cons top opened ih =>
    obtain ⟨htop, hrest⟩ := List.pairwise_cons.1 h
    rw [List.dropWhile_cons] at hstop
    split at hstop
    · exact ih hrest hstop
    · rename_i hlt
      have hlt : line < top := by simpa using hlt
      rcases List.mem_cons.1 hstop with rfl | hstop
      · exact hlt
      · have hle := htop stop hstop
        omega

/-- The pass goes on to a line below, where it pops what has ended. -/
theorem pop (h : OpenEnds opened kept line) {next : Nat} (hnext : line ≤ next) :
    OpenEnds (opened.dropWhile (· ≤ next)) kept next where
  growing := h.growing.sublist (List.dropWhile_sublist _)
  exists_kept := fun stop hstop => h.exists_kept stop ((List.dropWhile_sublist _).mem hstop)
  begun := fun k hk => (h.begun k hk).trans hnext
  mem_opened := fun k hk hlt => mem_dropWhile (h.mem_opened k hk (hnext.trans_lt hlt)) hlt

/-- A fold that is dropped leaves the stack as it is; a fold that is kept goes on
top. -/
theorem push (h : OpenEnds opened kept f.startLine)
    (hle : ∀ stop ∈ opened, f.stopLine ≤ stop) :
    OpenEnds (f.stopLine :: opened) (f :: kept) f.startLine where
  growing := List.Pairwise.cons hle h.growing
  exists_kept := by
    intro stop hstop
    rcases List.mem_cons.1 hstop with rfl | hstop
    · exact ⟨f, List.mem_cons_self, rfl⟩
    · obtain ⟨k, hk, heq⟩ := h.exists_kept stop hstop
      exact ⟨k, List.mem_cons_of_mem _ hk, heq⟩
  begun := by
    intro k hk
    rcases List.mem_cons.1 hk with rfl | hk
    · exact Nat.le_refl _
    · exact h.begun k hk
  mem_opened := by
    intro k hk hlt
    rcases List.mem_cons.1 hk with rfl | hk
    · exact List.mem_cons_self
    · exact List.mem_cons_of_mem _ (h.mem_opened k hk hlt)

/-- **The top of the stack sees every conflict.** A fold outruns one of the folds kept
just when it goes on below the end on top, once the ends that have come are popped. -/
theorem outruns_iff (h : OpenEnds opened kept f.startLine)
    (hlt : ∀ stop ∈ opened, f.startLine < stop) :
    (∃ k ∈ kept, f.Outruns k) ↔ ∃ stop ∈ opened, stop < f.stopLine := by
  constructor
  · rintro ⟨k, hk, -, hbegins, hends⟩
    exact ⟨k.stopLine, h.mem_opened k hk hbegins, hends⟩
  · rintro ⟨stop, hstop, hends⟩
    obtain ⟨k, hk, rfl⟩ := h.exists_kept stop hstop
    exact ⟨k, hk, h.begun k hk, hlt _ hstop, hends⟩

theorem head?_any_iff (h : opened.Pairwise (· ≤ ·)) (line : Nat) :
    opened.head?.any (· < line) = true ↔ ∃ stop ∈ opened, stop < line := by
  cases opened with
  | nil => simp
  | cons top opened =>
    obtain ⟨htop, -⟩ := List.pairwise_cons.1 h
    constructor
    · intro hlt
      exact ⟨top, List.mem_cons_self, by simpa using hlt⟩
    · rintro ⟨stop, hstop, hlt⟩
      have hle : top ≤ stop := by
        rcases List.mem_cons.1 hstop with rfl | hstop
        · exact Nat.le_refl _
        · exact htop stop hstop
      simpa using hle.trans_lt hlt

end OpenEnds

/-- **The stack keeps what the plain rule keeps.** -/
theorem sweep_kept (h : OpenEnds opened kept line) (hline : ∀ f ∈ fs, line ≤ f.startLine)
    (hfs : fs.Pairwise fun f g => f.startLine ≤ g.startLine) :
    (Nesting.sweep opened fs).kept = withoutOutrunning kept fs := by
  induction fs generalizing opened kept line with
  | nil => rfl
  | cons f fs ih =>
    obtain ⟨hbelow, hfs⟩ := List.pairwise_cons.1 hfs
    -- first what has ended is popped, then the top decides
    have hpop := h.pop (hline f List.mem_cons_self)
    have hlt : ∀ stop ∈ opened.dropWhile (· ≤ f.startLine), f.startLine < stop :=
      fun stop hstop => OpenEnds.lt_of_mem_dropWhile h.growing hstop
    have hiff := (OpenEnds.head?_any_iff hpop.growing f.stopLine).trans (hpop.outruns_iff hlt).symm
    rw [Nesting.sweep, withoutOutrunning]
    by_cases hsome : ∃ k ∈ kept, f.Outruns k
    · rw [if_pos (hiff.2 hsome), if_pos hsome]
      exact ih hpop hbelow hfs
    · have hle : ∀ stop ∈ opened.dropWhile (· ≤ f.startLine), f.stopLine ≤ stop := by
        intro stop hstop
        by_contra hends
        exact hsome ((hpop.outruns_iff hlt).2 ⟨stop, hstop, by omega⟩)
      rw [if_neg fun hhead => hsome (hiff.1 hhead), if_neg hsome]
      exact congrArg (f :: ·) (ih (hpop.push hle) hbelow hfs)

/-! ## The folds in order -/

/-- Repeats are dropped one by one. -/
theorem destutter_eq_withoutRepeats (last : Fold) (fs : List Fold) :
    fs.destutter' (fun f g => g.sameLines f = false) last =
      last :: Nesting.withoutRepeats (some last) fs := by
  induction fs generalizing last with
  | nil => rfl
  | cons f fs ih =>
    rw [Nesting.withoutRepeats, List.destutter']
    cases hsame : f.sameLines last with
    | true => simp [hsame, ih]
    | false => simp [hsame, ih]

theorem withoutRepeats_eq_destutter (fs : List Fold) :
    Nesting.withoutRepeats none fs = fs.destutter fun f g => g.sameLines f = false := by
  cases fs with
  | nil => rfl
  | cons f fs => exact (destutter_eq_withoutRepeats f fs).symm

/-- **Ordered folds are in the strict order**, so no two of them are over the same
lines. -/
theorem ordered_pairwise (fs : List Fold) : (ordered fs).Pairwise Fold.Leads := by
  have hsorted := List.pairwise_mergeSort Fold.precedes_trans Fold.precedes_total
    (fs.filter fun f => f.startLine < f.stopLine)
  have hprecedes : (ordered fs).Pairwise fun f g => f.precedes g = true :=
    hsorted.sublist (List.destutter_sublist _ _)
  have hdistinct : (ordered fs).IsChain fun f g => g.sameLines f = false :=
    List.isChain_destutter _ _
  rw [List.isChain_iff_forall_rel_of_append_cons_cons] at hdistinct
  rw [← List.isChain_iff_pairwise, List.isChain_iff_forall_rel_of_append_cons_cons]
  -- neighbours are in the order and over other lines
  intro f g before after hsplit
  have hne : ¬ (g.startLine = f.startLine ∧ g.stopLine = f.stopLine) := by
    rw [← Fold.sameLines_iff, hdistinct hsplit]
    decide
  rw [hsplit] at hprecedes
  have hle := (List.pairwise_cons.1 (List.pairwise_append.1 hprecedes).2.1).1 g List.mem_cons_self
  rw [Fold.precedes_iff] at hle
  unfold Fold.Leads
  omega

theorem mem_of_mem_ordered (hf : f ∈ ordered fs) : f ∈ fs := by
  have hsorted := (List.destutter_sublist _ _).mem hf
  exact (List.mem_filter.1 (List.mem_mergeSort.1 hsorted)).1

/-- Of the folds over the same lines one stays. -/
theorem exists_sameLines_withoutRepeats (hf : f ∈ fs) (last : Option Fold) :
    ∃ g, (g ∈ last ∨ g ∈ Nesting.withoutRepeats last fs) ∧ f.sameLines g = true := by
  induction fs generalizing last with
  | nil => simp at hf
  | cons h fs ih =>
    rw [Nesting.withoutRepeats]
    cases hlast : last.any h.sameLines with
    | true =>
      rcases List.mem_cons.1 hf with rfl | hf
      · obtain ⟨g, rfl, hsame⟩ := (Option.any_eq_true _ _).1 hlast
        exact ⟨g, Or.inl rfl, hsame⟩
      · simpa using ih hf last
    | false =>
      rcases List.mem_cons.1 hf with rfl | hf
      · exact ⟨f, Or.inr (by simp), Fold.sameLines_iff.2 ⟨rfl, rfl⟩⟩
      · obtain ⟨g, hg, hsame⟩ := ih hf (some h)
        refine ⟨g, Or.inr ?_, hsame⟩
        rcases hg with hg | hg
        · simp [Option.mem_some_iff.1 hg]
        · simp [hg]

theorem exists_sameLines_ordered (hf : f ∈ fs) (hlt : f.startLine < f.stopLine) :
    ∃ g ∈ ordered fs, f.sameLines g = true := by
  have hsorted : f ∈ (fs.filter fun f => f.startLine < f.stopLine).mergeSort Fold.precedes :=
    List.mem_mergeSort.2 (List.mem_filter.2 ⟨hf, by simpa using hlt⟩)
  obtain ⟨g, hg, hsame⟩ := exists_sameLines_withoutRepeats hsorted none
  rw [withoutRepeats_eq_destutter] at hg
  exact ⟨g, hg.resolve_left (by simp), hsame⟩

/-! ## The folds of a token list -/

variable {mark : List Char → Marker} {options : FoldOptions} {tokens : List Token}

/-- Every candidate hides something. -/
theorem lt_of_mem_foldCandidates (hf : f ∈ foldCandidates mark options tokens) :
    f.startLine < f.stopLine := by
  have hmulti : f.isMultiline = true := (List.mem_filter.1 hf).2
  simpa [Fold.isMultiline] using hmulti

/-- **The folds of a token list are those the plain rule keeps.** -/
theorem folds_eq_withoutOutrunning (mark : List Char → Marker) (options : FoldOptions)
    (tokens : List Token) :
    folds mark options tokens =
      withoutOutrunning [] (ordered (foldCandidates mark options tokens)) := by
  have hstarts : (ordered (foldCandidates mark options tokens)).Pairwise
      fun f g => f.startLine ≤ g.startLine := by
    refine (ordered_pairwise _).imp fun {f g} hleads => ?_
    unfold Fold.Leads at hleads
    omega
  have hmulti : (foldCandidates mark options tokens).filter (fun f => f.startLine < f.stopLine) =
      foldCandidates mark options tokens :=
    List.filter_eq_self.2 fun f hf => by simpa using lt_of_mem_foldCandidates hf
  have hstack : OpenEnds [] [] 0 := by constructor <;> simp
  rw [← sweep_kept hstack (fun _ _ => Nat.zero_le _) hstarts, ordered, hmulti,
    ← withoutRepeats_eq_destutter]
  rfl

/-- Folds are candidates, in order. -/
theorem folds_sublist (mark : List Char → Marker) (options : FoldOptions)
    (tokens : List Token) :
    (folds mark options tokens).Sublist (ordered (foldCandidates mark options tokens)) := by
  rw [folds_eq_withoutOutrunning]
  exact withoutOutrunning_sublist _ _

/-- **No two folds cross**, in whatever order they are taken. -/
theorem not_crosses_of_mem {g : Fold} (hf : f ∈ folds mark options tokens)
    (hg : g ∈ folds mark options tokens) : ¬ f.Crosses g := by
  have hleads : (folds mark options tokens).Pairwise Fold.Leads :=
    (ordered_pairwise _).sublist (folds_sublist mark options tokens)
  have hnone : (folds mark options tokens).Pairwise fun k f => ¬ f.Outruns k := by
    rw [folds_eq_withoutOutrunning]
    exact (withoutOutrunning_pairwise _ _).2
  have hapart : (folds mark options tokens).Pairwise fun f g => ¬ f.Crosses g ∧ ¬ g.Crosses f := by
    refine (hleads.and hnone).imp fun {k f} ⟨hleads, hnone⟩ => ?_
    unfold Fold.Leads at hleads
    unfold Fold.Outruns at hnone
    unfold Fold.Crosses
    omega
  have hself : ∀ f ∈ folds mark options tokens, ¬ f.Crosses f ∧ ¬ f.Crosses f := by
    intro f _
    unfold Fold.Crosses
    omega
  have : Std.Symm fun f g : Fold => ¬ f.Crosses g ∧ ¬ g.Crosses f := ⟨fun _ _ h => h.symm⟩
  exact (hapart.forall_of_forall hself hf hg).1

/-- **A candidate is dropped for one reason**: it crosses a fold that is kept. -/
theorem exists_crosses_of_notMem (hf : f ∈ ordered (foldCandidates mark options tokens))
    (hdropped : f ∉ folds mark options tokens) : ∃ k ∈ folds mark options tokens, k.Crosses f := by
  rw [folds_eq_withoutOutrunning] at hdropped ⊢
  simpa using exists_crosses_of_dropped (ordered_pairwise _) (by simp) hf hdropped

/-- **The stack nests folds as the plain rule does.** The folds of any tokens are the
candidates in order that outrun no fold kept before them. So they are in order and over
different lines, no two of them cross, and every other candidate in order crosses one of
them. -/
theorem folds_nest_plainly (mark : List Char → Marker) (options : FoldOptions)
    (tokens : List Token) :
    folds mark options tokens =
      withoutOutrunning [] (ordered (foldCandidates mark options tokens)) ∧
    (folds mark options tokens).Pairwise Fold.Leads ∧
    (∀ f ∈ folds mark options tokens, ∀ g ∈ folds mark options tokens, ¬ f.Crosses g) ∧
    ∀ f ∈ ordered (foldCandidates mark options tokens), f ∉ folds mark options tokens →
      ∃ k ∈ folds mark options tokens, k.Crosses f := by
  refine ⟨folds_eq_withoutOutrunning mark options tokens,
    (ordered_pairwise _).sublist (folds_sublist mark options tokens),
    fun f hf g hg => not_crosses_of_mem hf hg,
    fun f hf hdropped => exists_crosses_of_notMem hf hdropped⟩

/-- A region that is closed among the lines of a value crosses the fold of the value.
It comes first in the order, so it is kept and the value is dropped. -/
theorem folds_nest_plainly_region :
    ¬ (⟨0, 3, some .region⟩ : Fold).Crosses ⟨0, 3, some .region⟩ ∧
    ∃ k ∈ folds Marker.ofComment {} (tokenize .mkosi "#region\nK=\n a\n #endregion\n b").tokens,
      k.Crosses ⟨1, 4, none⟩ := by
  obtain ⟨hfolds, -, hapart, hdropped⟩ :=
    folds_nest_plainly Marker.ofComment {}
      (tokenize .mkosi "#region\nK=\n a\n #endregion\n b").tokens
  have hcandidates : foldCandidates Marker.ofComment {}
      (tokenize .mkosi "#region\nK=\n a\n #endregion\n b").tokens =
        [⟨0, 3, some .region⟩, ⟨1, 4, none⟩] := by decide +kernel
  have hordered : ordered [⟨0, 3, some .region⟩, ⟨1, 4, none⟩] =
      [⟨0, 3, some .region⟩, ⟨1, 4, none⟩] := by
    rw [ordered, List.filter_eq_self.2 (by decide), List.mergeSort_of_pairwise (by decide)]
    rfl
  rw [hcandidates, hordered] at hfolds hdropped
  have hkept : withoutOutrunning [] [⟨0, 3, some .region⟩, ⟨1, 4, none⟩] =
      [⟨0, 3, some .region⟩] := by decide
  rw [hkept] at hfolds
  exact ⟨hapart _ (by simp [hfolds]) _ (by simp [hfolds]),
    hdropped ⟨1, 4, none⟩ (by simp) (by simp [hfolds])⟩

/-! ## Folds that are all kept -/

/-- Two folds that do not get in each other's way: they are over different lines and do
not cross. -/
structure Fold.Apart (f g : Fold) : Prop where
  lines : f.sameLines g = false
  left : ¬ f.Crosses g
  right : ¬ g.Crosses f

/-- Whether folds are apart is a matter of their lines. -/
theorem Fold.apart_iff {g : Fold} :
    f.Apart g ↔ ¬ (f.startLine = g.startLine ∧ f.stopLine = g.stopLine) ∧
      ¬ (f.startLine < g.startLine ∧ g.startLine < f.stopLine ∧ f.stopLine < g.stopLine) ∧
      ¬ (g.startLine < f.startLine ∧ f.startLine < g.stopLine ∧ g.stopLine < f.stopLine) := by
  rw [← Fold.sameLines_iff, Bool.not_eq_true]
  exact ⟨fun h => ⟨h.lines, h.left, h.right⟩, fun ⟨hlines, hleft, hright⟩ => ⟨hlines, hleft, hright⟩⟩

theorem Fold.Apart.symm {g : Fold} (h : f.Apart g) : g.Apart f := by
  rw [Fold.apart_iff] at h ⊢
  omega

/-- Where no fold outruns another one, the plain rule drops nothing. -/
theorem withoutOutrunning_eq_self (hkept : ∀ k ∈ kept, ∀ f ∈ fs, ¬ f.Outruns k)
    (hfs : fs.Pairwise fun k f => ¬ f.Outruns k) : withoutOutrunning kept fs = fs := by
  induction fs generalizing kept with
  | nil => rfl
  | cons f fs ih =>
    obtain ⟨hf, hfs⟩ := List.pairwise_cons.1 hfs
    have hnone : ¬ ∃ k ∈ kept, f.Outruns k :=
      fun ⟨k, hk, houtruns⟩ => hkept k hk f List.mem_cons_self houtruns
    rw [withoutOutrunning, if_neg hnone]
    refine congrArg (f :: ·) (ih (fun k hk g hg => ?_) hfs)
    rcases List.mem_cons.1 hk with rfl | hk
    · exact hf g hg
    · exact hkept k hk g (List.mem_cons_of_mem _ hg)

/-- Folds that are apart are put in order only. -/
theorem ordered_perm (hmulti : ∀ f ∈ fs, f.startLine < f.stopLine)
    (hapart : fs.Pairwise Fold.Apart) : (ordered fs).Perm fs := by
  have hperm : (fs.mergeSort Fold.precedes).Perm fs := List.mergeSort_perm fs _
  have hdistinct : (fs.mergeSort Fold.precedes).IsChain fun f g => g.sameLines f = false := by
    have hsorted := (hperm.pairwise_iff Fold.Apart.symm).2 hapart
    exact (hsorted.imp fun {f g} h => h.symm.lines).isChain
  rw [ordered, List.filter_eq_self.2 fun f hf => by simpa using hmulti f hf,
    List.destutter_of_isChain _ _ hdistinct]
  exact hperm

/-- **Candidates that are apart are all kept.** Nesting neither drops nor merges any of
them. -/
theorem folds_perm (h : (foldCandidates mark options tokens).Pairwise Fold.Apart) :
    (folds mark options tokens).Perm (foldCandidates mark options tokens) := by
  have hperm := ordered_perm (fun f hf => lt_of_mem_foldCandidates hf) h
  have hapart := (hperm.pairwise_iff Fold.Apart.symm).2 h
  have hnone : (ordered (foldCandidates mark options tokens)).Pairwise fun k f => ¬ f.Outruns k :=
    (hapart.and (ordered_pairwise _)).imp fun {k f} ⟨hkf, hleads⟩ houtruns =>
      hkf.left (hleads.crosses houtruns)
  rw [folds_eq_withoutOutrunning, withoutOutrunning_eq_self (by simp) hnone]
  exact hperm

/-- **Candidates that stand one below the other are the folds**, as they are. -/
theorem folds_eq_candidates
    (h : (foldCandidates mark options tokens).Pairwise fun f g => f.stopLine < g.startLine) :
    folds mark options tokens = foldCandidates mark options tokens := by
  have hleads : (foldCandidates mark options tokens).Pairwise Fold.Leads := by
    refine h.imp_of_mem fun {f g} hf _ hlt => Or.inl ?_
    have hmulti := lt_of_mem_foldCandidates hf
    omega
  have hapart : (foldCandidates mark options tokens).Pairwise Fold.Apart := by
    refine h.imp_of_mem fun {f g} hf hg hlt => Fold.apart_iff.2 ?_
    have hmulti := lt_of_mem_foldCandidates hf
    have hmulti' := lt_of_mem_foldCandidates hg
    omega
  refine List.Perm.eq_of_pairwise (fun f g _ _ hfg hgf => ?_)
    ((ordered_pairwise _).sublist (folds_sublist mark options tokens)) hleads (folds_perm hapart)
  unfold Fold.Leads at hfg hgf
  omega

end UnitFile
