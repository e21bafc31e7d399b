import UnitFile.Proofs.LineOrder
import UnitFile.Proofs.Nesting
/-!
# Regions and runs of comments

With the families of comments and regions alone, the folds of a text are its regions and
its runs of comments, one fold each (`comment_folds_exact`). Regions are matched as
brackets: an opening and a closing marker make a region if the markers between them are
balanced. A run is a stretch of comments that are no markers, as long as it can be.

The scan over the tokens keeps the lines of the open regions on a stack and the lines of
the run under way beside it. Both are told by the tokens read so far
(`mem_opened_iff`, `run_eq_some_iff`), and a fold is found where a marker closes the top of
the stack or where the run ends (`mem_found_iff`). That the folds found are apart from one
another is a matter of lines alone (`Tidy`): a fold is found below all the others, and no
region is open that began within one of them.

Which comments are markers is left open: `mark` can be any function of their texts. It gives
one role to each comment, so that none opens a region and closes one.
-/

namespace UnitFile

/-- The families of comments and regions alone. -/
def FoldOptions.onlyComments : FoldOptions :=
  { comments := true, regions := true, values := false, sections := false }

/-- What a token does to regions. Only comments do anything to them. -/
def Token.marker (mark : List Char → Marker) (t : Token) : Marker :=
  if t.kind = .comment then mark t.text.toList else .plain

/-- Whether a token is a comment that is no marker. -/
def Token.isPlainComment (mark : List Char → Marker) (t : Token) : Bool :=
  t.kind == .comment && t.marker mark == .plain

/-- **Tokens whose markers match as brackets.** -/
inductive Balanced (mark : List Char → Marker) : List Token → Prop
  | nil : Balanced mark []
  | plain {t : Token} {ts : List Token} (ht : t.marker mark = .plain) (hts : Balanced mark ts) :
      Balanced mark (t :: ts)
  | region {first last : Token} {inner ts : List Token} (hopens : first.marker mark = .opens)
      (hinner : Balanced mark inner) (hcloses : last.marker mark = .closes)
      (hts : Balanced mark ts) : Balanced mark (first :: (inner ++ last :: ts))

/-- **The tokens that a fold of comments goes from and to.** -/
inductive CommentFold (mark : List Char → Marker) (ts : List Token) :
    FoldKind → Token → Token → Prop
  /-- The opening marker of a region, and the closing one that the markers between them
  leave to it. -/
  | region {before inner after : List Token} {first last : Token}
      (hts : ts = before ++ first :: (inner ++ last :: after)) (hopens : first.marker mark = .opens)
      (hinner : Balanced mark inner) (hcloses : last.marker mark = .closes) :
      CommentFold mark ts .region first last
  /-- The first and the last of two or more comments that are no markers, with no such
  comment in front of them or behind. -/
  | run {before inner after : List Token} {first last : Token}
      (hts : ts = before ++ first :: (inner ++ last :: after))
      (hplain : ∀ t ∈ first :: (inner ++ [last]), t.isPlainComment mark = true)
      (hfront : ∀ t ∈ before.getLast?, t.isPlainComment mark = false)
      (hbehind : ∀ t ∈ after.head?, t.isPlainComment mark = false) :
      CommentFold mark ts .comment first last

/-- The fold from the line of one token to the line of another. -/
def foldBetween (kind : FoldKind) (first last : Token) : Fold :=
  ⟨first.startLine, last.startLine, some kind⟩

variable {mark : List Char → Marker}
variable {ts us before after inner : List Token} {t u first last : Token} {f : Fold}

/-! ## Markers -/

theorem Balanced.append (hts : Balanced mark ts) (hus : Balanced mark us) :
    Balanced mark (ts ++ us) := by
  induction hts with
  | nil => exact hus
  | plain ht _ ih => exact .plain ht ih
  | region hopens hinner hcloses _ _ ih =>
    rw [List.cons_append, List.append_assoc, List.cons_append]
    exact .region hopens hinner hcloses ih

theorem Token.kind_of_marker {m : Marker} (h : t.marker mark = m) (hm : m ≠ .plain) :
    t.kind = .comment := by
  by_contra hk
  exact hm (by simp [← h, Token.marker, hk])

theorem Token.isPlainComment_iff :
    t.isPlainComment mark = true ↔ t.kind = .comment ∧ t.marker mark = .plain := by
  simp [Token.isPlainComment]

theorem Token.isPlainComment_of_marker {m : Marker} (h : t.marker mark = m) (hm : m ≠ .plain) :
    t.isPlainComment mark = false := by
  simp [Token.isPlainComment, h, hm]

namespace CommentScan

variable {s : CommentScan} {line : Nat}

/-! ## One token -/

@[simp] theorem opened_flush (s : CommentScan) : s.flush.opened = s.opened := by
  unfold flush
  split <;> rfl

@[simp] theorem run_flush (s : CommentScan) : s.flush.run = none := by
  unfold flush
  split
  · assumption
  · rfl

theorem mem_found_flush :
    f ∈ s.flush.found ↔
      f ∈ s.found ∨ ∃ a b, s.run = some (a, b) ∧ f = ⟨a, b, some .comment⟩ := by
  unfold flush
  split
  · rename_i hrun
    simp [hrun]
  · rename_i a b hrun
    simp [hrun, or_comm]

/-- What a token does to the scan: a marker opens or closes a region, any other comment
joins the run under way, and a token that is no comment ends the run. -/
theorem feed_onlyComments (s : CommentScan) (t : Token) :
    feed mark .onlyComments s t =
      match t.marker mark with
      | .opens => s.openRegion t.startLine
      | .closes => s.closeRegion t.startLine
      | .plain => if t.isPlainComment mark then s.extend t.startLine else s.flush := by
  by_cases hk : t.kind = .comment
  · cases hm : mark t.text.toList <;>
      simp [feed, Token.marker, Token.isPlainComment, FoldOptions.onlyComments, hk, hm]
  · simp [feed, Token.marker, Token.isPlainComment, hk]

theorem opened_feed (s : CommentScan) (t : Token) :
    (feed mark .onlyComments s t).opened =
      match t.marker mark with
      | .opens => t.startLine :: s.opened
      | .closes => s.opened.tail
      | .plain => s.opened := by
  rw [feed_onlyComments]
  cases t.marker mark with
  | opens => rfl
  | closes =>
    simp only [closeRegion, opened_flush]
    cases hopened : s.opened with
    | nil => simp [hopened]
    | cons first rest => rfl
  | plain =>
    dsimp only
    split
    · rfl
    · exact opened_flush s

theorem run_feed (s : CommentScan) (t : Token) :
    (feed mark .onlyComments s t).run =
      if t.isPlainComment mark then some ((s.run.map Prod.fst).getD t.startLine, t.startLine)
      else none := by
  rw [feed_onlyComments]
  cases hm : t.marker mark with
  | opens =>
    rw [Token.isPlainComment_of_marker hm (by decide)]
    exact run_flush s
  | closes =>
    rw [Token.isPlainComment_of_marker hm (by decide)]
    simp only [closeRegion]
    split
    · exact run_flush s
    · exact run_flush s
  | plain =>
    dsimp only
    split
    · rfl
    · exact run_flush s

/-- A fold is found where a token ends the run, or closes the region on top. -/
theorem mem_found_feed :
    f ∈ (feed mark .onlyComments s t).found ↔
      f ∈ s.found ∨
      (t.isPlainComment mark = false ∧ ∃ a b, s.run = some (a, b) ∧ f = ⟨a, b, some .comment⟩) ∨
      (t.marker mark = .closes ∧ ∃ a ∈ s.opened.head?, f = ⟨a, t.startLine, some .region⟩) := by
  rw [feed_onlyComments]
  cases hm : t.marker mark with
  | opens =>
    have hnot := Token.isPlainComment_of_marker hm (by decide)
    simp only [openRegion, mem_found_flush, hnot]
    simp
  | closes =>
    have hnot := Token.isPlainComment_of_marker hm (by decide)
    simp only [closeRegion, opened_flush, hnot]
    cases s.opened with
    | nil => simp [mem_found_flush]
    | cons first rest =>
      simp only [List.mem_cons, mem_found_flush, List.head?_cons, Option.mem_some_iff,
        exists_eq_left', true_and]
      rw [or_comm, or_assoc]
  | plain =>
    dsimp only
    split
    · rename_i hplain
      simp [extend, hplain]
    · rename_i hplain
      simp [mem_found_flush, hplain]

/-! ## All tokens -/

/-- The scan after some tokens. -/
def reading (mark : List Char → Marker) (ts : List Token) : CommentScan :=
  ts.foldl (feed mark .onlyComments) {}

@[simp] theorem reading_nil : reading mark [] = {} := rfl

theorem reading_append (ts us : List Token) :
    reading mark (ts ++ us) = us.foldl (feed mark .onlyComments) (reading mark ts) :=
  List.foldl_append ..

theorem reading_concat (ts : List Token) (t : Token) :
    reading mark (ts ++ [t]) = feed mark .onlyComments (reading mark ts) t :=
  List.foldl_concat ..

/-- **Balanced tokens leave the stack as it is.** -/
theorem opened_foldl_balanced (h : Balanced mark ts) (s : CommentScan) :
    (ts.foldl (feed mark .onlyComments) s).opened = s.opened := by
  induction h generalizing s with
  | nil => rfl
  | plain ht _ ih => rw [List.foldl_cons, ih, opened_feed, ht]
  | region hopens _ hcloses _ ihinner ihrest =>
    rw [List.foldl_cons, List.foldl_append, List.foldl_cons, ihrest, opened_feed, hcloses,
      ihinner, opened_feed, hopens]
    rfl

/-- The opening markers among some tokens that are still open, innermost first. -/
inductive StillOpen (mark : List Char → Marker) : List Token → List Token → Prop
  | none (ts : List Token) : StillOpen mark ts []
  | some {before inner outer : List Token} {first : Token} (hopens : first.marker mark = .opens)
      (hinner : Balanced mark inner) (houter : StillOpen mark before outer) :
      StillOpen mark (before ++ first :: inner) (first :: outer)

theorem StillOpen.append {stack : List Token} (h : StillOpen mark ts stack)
    (hus : Balanced mark us) : StillOpen mark (ts ++ us) stack := by
  cases h with
  | none => exact .none _
  | some hopens hinner houter =>
    rw [List.append_assoc, List.cons_append]
    exact .some hopens (hinner.append hus) houter

/-- **What the stack holds**: the lines of the markers that are still open. -/
theorem exists_stillOpen (ts : List Token) :
    ∃ stack, StillOpen mark ts stack ∧ (reading mark ts).opened = stack.map Token.startLine := by
  induction ts using List.reverseRecOn with
  | nil => exact ⟨[], .none _, rfl⟩
  | append_singleton ts t ih =>
    obtain ⟨stack, hstack, hopened⟩ := ih
    rw [reading_concat, opened_feed, hopened]
    cases hm : t.marker mark with
    | opens => exact ⟨t :: stack, .some hm .nil hstack, rfl⟩
    | plain => exact ⟨stack, hstack.append (.plain hm .nil), rfl⟩
    | closes =>
      cases hstack with
      | none => exact ⟨[], .none _, rfl⟩
      | @some before inner outer first hopens hinner houter =>
        refine ⟨outer, ?_, rfl⟩
        have hregion : Balanced mark (first :: (inner ++ [t])) := .region hopens hinner hm .nil
        rw [List.append_assoc, List.cons_append]
        exact houter.append hregion

/-- **What is on top of the stack**: the line of an opening marker with balanced tokens
behind it. -/
theorem mem_opened_iff :
    line ∈ (reading mark ts).opened.head? ↔ ∃ before first inner, ts = before ++ first :: inner ∧
      first.marker mark = .opens ∧ Balanced mark inner ∧ line = first.startLine := by
  constructor
  · intro hline
    obtain ⟨stack, hstack, hopened⟩ := exists_stillOpen ts
    rw [hopened] at hline
    cases hstack with
    | none => simp at hline
    | @some before inner outer first hopens hinner houter =>
      exact ⟨before, first, inner, rfl, hopens, hinner, by simpa using hline.symm⟩
  · rintro ⟨before, first, inner, rfl, hopens, hinner, rfl⟩
    rw [reading_append, List.foldl_cons, opened_foldl_balanced hinner, opened_feed, hopens]
    rfl

/-- Without a run under way, the last token is none that could have been in one. -/
theorem not_isPlainComment_of_run (h : (reading mark ts).run = none) (ht : t ∈ ts.getLast?) :
    t.isPlainComment mark = false := by
  obtain ⟨init, rfl⟩ := List.getLast?_eq_some_iff.1 ht
  by_contra hplain
  rw [reading_concat, run_feed, if_pos (by simpa using hplain)] at h
  simp at h

/-- Comments that are no markers make the run under way longer. -/
theorem run_foldl_plain {a b : Nat} (hts : ∀ t ∈ ts, t.isPlainComment mark = true)
    (hrun : s.run = some (a, b)) :
    (ts.foldl (feed mark .onlyComments) s).run =
      some (a, ((ts.getLast?.map Token.startLine).getD b)) := by
  induction ts generalizing s b with
  | nil => simpa using hrun
  | cons t ts ih =>
    have hfeed : (feed mark .onlyComments s t).run = some (a, t.startLine) := by
      rw [run_feed, if_pos (hts t List.mem_cons_self), hrun]
      rfl
    rw [List.foldl_cons, ih (fun u hu => hts u (List.mem_cons_of_mem _ hu)) hfeed,
      List.getLast?_cons]
    cases ts.getLast? <;> rfl

/-- **What the run under way is**: the comments at the end of the tokens read that are no
markers, as many as there are. -/
theorem run_eq_some_iff {a b : Nat} :
    (reading mark ts).run = some (a, b) ↔ ∃ before first rest, ts = before ++ first :: rest ∧
      (∀ t ∈ first :: rest, t.isPlainComment mark = true) ∧
      (∀ t ∈ before.getLast?, t.isPlainComment mark = false) ∧
      a = first.startLine ∧ b = (rest.getLastD first).startLine := by
  constructor
  · intro hrun
    induction ts using List.reverseRecOn generalizing b with
    | nil => simp at hrun
    | append_singleton ts t ih =>
      rw [reading_concat, run_feed] at hrun
      split at hrun
      · rename_i hplain
        obtain ⟨rfl, rfl⟩ : ((reading mark ts).run.map Prod.fst).getD t.startLine = a ∧
            t.startLine = b := by simpa using hrun
        cases hbefore : (reading mark ts).run with
        | none =>
          refine ⟨ts, t, [], rfl, by simpa using hplain, ?_, rfl, rfl⟩
          intro u hu
          exact not_isPlainComment_of_run hbefore hu
        | some lines =>
          obtain ⟨a, b⟩ := lines
          rw [hbefore] at ih
          obtain ⟨before, first, rest, rfl, hall, hfront, rfl, -⟩ := ih rfl
          refine ⟨before, first, rest ++ [t], by simp, ?_, hfront, rfl, by simp⟩
          intro u hu
          rcases List.mem_append.1 (show u ∈ (first :: rest) ++ [t] from hu) with hu | hu
          · exact hall u hu
          · rw [List.mem_singleton.1 hu]
            exact hplain
      · simp at hrun
  · rintro ⟨before, first, rest, rfl, hall, hfront, rfl, rfl⟩
    -- nothing is under way before the first comment of the run
    have hnone : (reading mark before).run = none := by
      rcases List.eq_nil_or_concat before with rfl | ⟨init, x, rfl⟩
      · rfl
      · rw [List.concat_eq_append, reading_concat, run_feed, if_neg]
        simp [hfront x (by simp)]
    have hfirst : (feed mark .onlyComments (reading mark before) first).run =
        some (first.startLine, first.startLine) := by
      rw [run_feed, if_pos (hall first List.mem_cons_self), hnone]
      rfl
    rw [reading_append, List.foldl_cons,
      run_foldl_plain (fun t ht => hall t (List.mem_cons_of_mem _ ht)) hfirst,
      List.getLastD_eq_getLast?]
    cases rest.getLast? <;> rfl

/-- **Where a fold is found**: at a token that ends the run in front of it, or closes the
region on top. -/
theorem mem_found_iff :
    f ∈ (reading mark ts).found ↔ ∃ before t after, ts = before ++ t :: after ∧
      ((t.isPlainComment mark = false ∧
          ∃ a b, (reading mark before).run = some (a, b) ∧ f = ⟨a, b, some .comment⟩) ∨
        (t.marker mark = .closes ∧
          ∃ a ∈ (reading mark before).opened.head?, f = ⟨a, t.startLine, some .region⟩)) := by
  induction ts using List.reverseRecOn with
  | nil => simp
  | append_singleton ts t ih =>
    rw [reading_concat, mem_found_feed, ih]
    constructor
    · rintro (⟨before, u, after, rfl, hfound⟩ | hfound)
      · exact ⟨before, u, after ++ [t], by simp, hfound⟩
      · exact ⟨ts, t, [], rfl, hfound⟩
    · rintro ⟨before, u, after, hsplit, hfound⟩
      rcases List.eq_nil_or_concat after with rfl | ⟨after, x, rfl⟩
      · obtain ⟨rfl, rfl⟩ := List.append_singleton_inj.1 hsplit
        exact Or.inr hfound
      · rw [List.concat_eq_append, ← List.cons_append, ← List.append_assoc] at hsplit
        obtain ⟨rfl, rfl⟩ := List.append_singleton_inj.1 hsplit
        exact Or.inl ⟨before, u, after, rfl, hfound⟩

/-! ## The lines of the scan -/

/-- **What the scan holds when it has come to a line**, as far as lines go: everything is
above the line, the stack falls from the top down, and of two folds found the later one
ends below the earlier one and begins above or below it. No region is open that began
within a fold found, and the run under way is below all else. -/
structure Tidy (s : CommentScan) (line : Nat) : Prop where
  opened_lt : ∀ o ∈ s.opened, o < line
  opened_falling : s.opened.Pairwise (· > ·)
  found_lt : ∀ f ∈ s.found, f.startLine ≤ f.stopLine ∧ f.stopLine < line
  found_apart : s.found.Pairwise fun f g =>
    g.stopLine < f.stopLine ∧ (f.startLine < g.startLine ∨ g.stopLine < f.startLine)
  opened_apart : ∀ o ∈ s.opened, ∀ f ∈ s.found, o < f.startLine ∨ f.stopLine < o
  run : ∀ a b, s.run = some (a, b) →
    a ≤ b ∧ b < line ∧ (∀ o ∈ s.opened, o < a) ∧ ∀ f ∈ s.found, f.stopLine < a

namespace Tidy

theorem mono (h : Tidy s line) {next : Nat} (hnext : line ≤ next) : Tidy s next where
  opened_lt := by
    intro o ho
    have hlt := h.opened_lt o ho
    omega
  opened_falling := h.opened_falling
  found_lt := by
    intro f hf
    obtain ⟨hle, hlt⟩ := h.found_lt f hf
    omega
  found_apart := h.found_apart
  opened_apart := h.opened_apart
  run := by
    intro a b hrun
    obtain ⟨hle, hlt, hrest⟩ := h.run a b hrun
    exact ⟨hle, by omega, hrest⟩

/-- A fold is found that begins below all open regions and ends below all folds. -/
theorem push (h : Tidy s line) (hrun : s.run = none)
    (hf : f.startLine ≤ f.stopLine ∧ f.stopLine < line) (hopened : ∀ o ∈ s.opened, o < f.startLine)
    (hfound : ∀ g ∈ s.found,
      g.stopLine < f.stopLine ∧ (f.startLine < g.startLine ∨ g.stopLine < f.startLine)) :
    Tidy { s with found := f :: s.found } line where
  opened_lt := h.opened_lt
  opened_falling := h.opened_falling
  found_lt := List.forall_mem_cons.2 ⟨hf, h.found_lt⟩
  found_apart := List.Pairwise.cons hfound h.found_apart
  opened_apart := by
    intro o ho g hg
    rcases List.mem_cons.1 hg with rfl | hg
    · exact Or.inl (hopened o ho)
    · exact h.opened_apart o ho g hg
  run := by
    intro a b hsome
    rw [hrun] at hsome
    contradiction

theorem flush (h : Tidy s line) : Tidy s.flush line := by
  unfold CommentScan.flush
  split
  · exact h
  · rename_i a b hrun
    obtain ⟨hle, hlt, hopened, hfound⟩ := h.run a b hrun
    have hidle : Tidy { s with run := none } line :=
      { h with run := by intro a b hsome; simp at hsome }
    refine hidle.push rfl ⟨hle, hlt⟩ hopened fun g hg => ?_
    have hbelow := hfound g hg
    exact ⟨by dsimp only; omega, Or.inr hbelow⟩

theorem openRegion (h : Tidy s line) : Tidy (s.openRegion line) (line + 1) := by
  have hflush := h.flush
  have hopened : s.flush.opened = s.opened := opened_flush s
  refine ⟨?_, ?_, ?_, hflush.found_apart, ?_, ?_⟩
  · intro o ho
    rcases List.mem_cons.1 ho with rfl | ho
    · omega
    · have hlt := h.opened_lt o ho
      omega
  · exact List.Pairwise.cons (fun o ho => h.opened_lt o ho) h.opened_falling
  · intro f hf
    obtain ⟨hle, hlt⟩ := hflush.found_lt f hf
    omega
  · intro o ho f hf
    rcases List.mem_cons.1 ho with rfl | ho
    · exact Or.inr (hflush.found_lt f hf).2
    · exact hflush.opened_apart o (hopened ▸ ho) f hf
  · intro a b hrun
    rw [show (s.openRegion line).run = s.flush.run from rfl, run_flush] at hrun
    contradiction

theorem closeRegion (h : Tidy s line) : Tidy (s.closeRegion line) (line + 1) := by
  have hflush := h.flush
  simp only [CommentScan.closeRegion]
  split
  · exact hflush.mono (by omega)
  · rename_i first rest hopened
    have hfalling := hflush.opened_falling
    have hlt := hflush.opened_lt
    have hapart := hflush.opened_apart
    rw [hopened] at hfalling hlt hapart
    obtain ⟨hbelow, hrest⟩ := List.pairwise_cons.1 hfalling
    have hpopped : Tidy { s.flush with opened := rest } (line + 1) :=
      { hflush.mono (Nat.le_succ line) with
        opened_lt := fun o ho => Nat.lt_succ_of_lt (hlt o (List.mem_cons_of_mem _ ho))
        opened_falling := hrest
        opened_apart := fun o ho => hapart o (List.mem_cons_of_mem _ ho)
        run := by
          intro a b hrun
          rw [show (CommentScan.mk s.flush.run rest s.flush.found).run = none from run_flush s]
            at hrun
          contradiction }
    have hfirst := hlt first List.mem_cons_self
    refine hpopped.push (run_flush s) ⟨by dsimp only; omega, by dsimp only; omega⟩ hbelow ?_
    intro g hg
    exact ⟨(hflush.found_lt g hg).2, hapart first List.mem_cons_self g hg⟩

theorem extend (h : Tidy s line) : Tidy (s.extend line) (line + 1) := by
  refine { h.mono (Nat.le_succ line) with run := ?_ }
  intro a b hrun
  obtain ⟨rfl, rfl⟩ : (s.run.map Prod.fst).getD line = a ∧ line = b := by
    simpa [CommentScan.extend] using hrun
  cases hbefore : s.run with
  | none =>
    exact ⟨Nat.le_refl _, by omega, h.opened_lt, fun f hf => (h.found_lt f hf).2⟩
  | some lines =>
    obtain ⟨a, b⟩ := lines
    obtain ⟨hle, hlt, hrest⟩ := h.run a b hbefore
    exact ⟨by dsimp; omega, by omega, hrest⟩

/-- A comment on the line that the scan has come to. -/
theorem feed_comment (h : Tidy s t.startLine) (hk : t.kind = .comment) :
    Tidy (feed mark .onlyComments s t) (t.startLine + 1) := by
  rw [feed_onlyComments]
  cases hm : t.marker mark with
  | opens => exact h.openRegion
  | closes => exact h.closeRegion
  | plain =>
    dsimp only
    rw [if_pos (Token.isPlainComment_iff.2 ⟨hk, hm⟩)]
    exact h.extend

theorem feed_other (h : Tidy s line) (hk : t.kind ≠ .comment) :
    Tidy (feed mark .onlyComments s t) line := by
  have hfeed : feed mark .onlyComments s t = s.flush := by simp [feed, hk]
  rw [hfeed]
  exact h.flush

end Tidy

/-- **The scan stays tidy** over tokens in the order of their lines. -/
theorem tidy_reading (hts : InLines ts) (hlt : ∀ t ∈ ts, t.kind = .comment → t.startLine < line) :
    Tidy (reading mark ts) line := by
  induction ts using List.reverseRecOn generalizing line with
  | nil =>
    rw [reading_nil]
    constructor <;> simp
  | append_singleton ts t ih =>
    rw [reading_concat]
    by_cases hk : t.kind = .comment
    · have habove : ∀ u ∈ ts, u.kind = .comment → u.startLine < t.startLine := by
        intro u hu _
        have hlt := (hts.above_of_mem_front hu).stopLine_lt (by rw [hk]; exact u.kind.leadsTo_comment)
        have hone := hts.oneLine u (List.mem_append_left _ hu)
        omega
      exact ((ih hts.of_append_left habove).feed_comment hk).mono (hlt t (by simp) hk)
    · exact (ih hts.of_append_left fun u hu => hlt u (List.mem_append_left _ hu)).feed_other hk

end CommentScan

/-! ## The folds of a text -/

open CommentScan

theorem mem_commentCandidates_iff :
    f ∈ foldCandidates mark .onlyComments ts ↔
      f ∈ (reading mark ts).flush.found ∧ f.startLine < f.stopLine := by
  simp [foldCandidates, FoldOptions.onlyComments, List.mem_filter, Fold.isMultiline, ofTokens,
    reading]

/-- A comment is on a line of its own. -/
theorem InLines.eq_of_comment (hts : InLines ts) (ht : t ∈ ts) (hu : u ∈ ts)
    (htk : t.kind = .comment) (huk : u.kind = .comment) (hline : t.startLine = u.startLine) :
    t = u := by
  obtain ⟨before, after, rfl⟩ := List.append_of_mem ht
  have hone := hts.oneLine t ht
  rcases List.mem_append.1 hu with hu | hu
  · have hlt := (hts.above_of_mem_front hu).stopLine_lt (by rw [htk]; exact u.kind.leadsTo_comment)
    have huone := hts.oneLine u (List.mem_append_left _ hu)
    omega
  · rcases List.mem_cons.1 hu with rfl | hu
    · rfl
    · have hlt := (hts.above_of_mem hu).stopLine_lt (by rw [huk]; exact t.kind.leadsTo_comment)
      omega

namespace CommentFold

variable {kind : FoldKind}

theorem kinds (h : CommentFold mark ts kind first last) :
    first.kind = .comment ∧ last.kind = .comment := by
  cases h with
  | region hts hopens hinner hcloses =>
    exact ⟨Token.kind_of_marker hopens (by decide), Token.kind_of_marker hcloses (by decide)⟩
  | run hts hplain hfront hbehind =>
    exact ⟨(Token.isPlainComment_iff.1 (hplain first (by simp))).1,
      (Token.isPlainComment_iff.1 (hplain last (by simp))).1⟩

theorem exists_split (h : CommentFold mark ts kind first last) :
    ∃ before inner after, ts = before ++ first :: (inner ++ last :: after) := by
  cases h with
  | region hts hopens hinner hcloses => exact ⟨_, _, _, hts⟩
  | run hts hplain hfront hbehind => exact ⟨_, _, _, hts⟩

/-- No such fold is over one line only. -/
theorem startLine_lt (hts : InLines ts) (h : CommentFold mark ts kind first last) :
    first.startLine < last.startLine := by
  obtain ⟨before, inner, after, rfl⟩ := h.exists_split
  have habove : first.Above last := hts.above_of_mem (by simp)
  have hlt := habove.stopLine_lt (by rw [h.kinds.2]; exact first.kind.leadsTo_comment)
  have hone := hts.oneLine first (by simp)
  omega

/-- **The scan finds every region and every run.** -/
theorem mem_found (h : CommentFold mark ts kind first last) :
    foldBetween kind first last ∈ (reading mark ts).flush.found := by
  rw [mem_found_flush]
  cases h with
  | @region before inner after first last hts hopens hinner hcloses =>
    have htop : first.startLine ∈ (reading mark (before ++ first :: inner)).opened.head? :=
      mem_opened_iff.2 ⟨before, first, inner, rfl, hopens, hinner, rfl⟩
    exact Or.inl (mem_found_iff.2 ⟨before ++ first :: inner, last, after, by simp [hts],
      Or.inr ⟨hcloses, first.startLine, htop, rfl⟩⟩)
  | @run before inner after first last hts hplain hfront hbehind =>
    have hrun : (reading mark (before ++ first :: (inner ++ [last]))).run =
        some (first.startLine, last.startLine) :=
      run_eq_some_iff.2 ⟨before, first, inner ++ [last], rfl, hplain, hfront, rfl, by simp⟩
    -- the run ends at a token behind it or with the text
    cases after with
    | nil =>
      rw [hts]
      exact Or.inr ⟨_, _, hrun, rfl⟩
    | cons t after =>
      exact Or.inl (mem_found_iff.2 ⟨before ++ first :: (inner ++ [last]), t, after, by simp [hts],
        Or.inl ⟨hbehind t (by simp), _, _, hrun, rfl⟩⟩)

/-- A run that ends at `after`, over more than one line. -/
theorem of_run {a b : Nat} (hrun : (reading mark before).run = some (a, b))
    (hbehind : ∀ t ∈ after.head?, t.isPlainComment mark = false) (hlt : a < b) :
    ∃ first last, CommentFold mark (before ++ after) .comment first last ∧
      (⟨a, b, some .comment⟩ : Fold) = foldBetween .comment first last := by
  obtain ⟨front, first, rest, rfl, hplain, hfront, rfl, rfl⟩ := run_eq_some_iff.1 hrun
  rcases List.eq_nil_or_concat rest with rfl | ⟨inner, last, rfl⟩
  · simp at hlt
  · rw [List.concat_eq_append] at hplain ⊢
    rw [List.getLastD_concat]
    exact ⟨first, last, .run (by simp) hplain hfront hbehind, rfl⟩

/-- **And nothing else.** -/
theorem exists_of_mem_found (hf : f ∈ (reading mark ts).flush.found)
    (hlt : f.startLine < f.stopLine) :
    ∃ kind first last, CommentFold mark ts kind first last ∧ f = foldBetween kind first last := by
  rcases mem_found_flush.1 hf with hf | ⟨a, b, hrun, rfl⟩
  · obtain ⟨before, t, after, rfl, hadded⟩ := mem_found_iff.1 hf
    rcases hadded with ⟨ht, a, b, hrun, rfl⟩ | ⟨hcloses, a, htop, rfl⟩
    · have hbehind : ∀ x ∈ (t :: after).head?, x.isPlainComment mark = false := by simpa using ht
      obtain ⟨first, last, hfold⟩ := of_run hrun hbehind hlt
      exact ⟨.comment, first, last, hfold⟩
    · obtain ⟨front, first, inner, rfl, hopens, hinner, rfl⟩ := mem_opened_iff.1 htop
      have hsplit : front ++ first :: inner ++ t :: after =
          front ++ first :: (inner ++ t :: after) := by simp
      exact ⟨.region, first, t, .region hsplit hopens hinner hcloses, rfl⟩
  · have hbehind : ∀ x ∈ ([] : List Token).head?, x.isPlainComment mark = false := by simp
    obtain ⟨first, last, hfold⟩ := of_run hrun hbehind hlt
    rw [List.append_nil] at hfold
    exact ⟨.comment, first, last, hfold⟩

end CommentFold

theorem mem_commentCandidates_iff_commentFold (hts : InLines ts) :
    f ∈ foldCandidates mark .onlyComments ts ↔
      ∃ kind first last, CommentFold mark ts kind first last ∧ f = foldBetween kind first last := by
  rw [mem_commentCandidates_iff]
  constructor
  · rintro ⟨hf, hlt⟩
    exact CommentFold.exists_of_mem_found hf hlt
  · rintro ⟨kind, first, last, hfold, rfl⟩
    exact ⟨hfold.mem_found, hfold.startLine_lt hts⟩

/-- No token is below the last one. -/
theorem InLines.exists_lt (hts : InLines ts) : ∃ line, ∀ t ∈ ts, t.startLine < line := by
  rcases List.eq_nil_or_concat ts with rfl | ⟨init, u, rfl⟩
  · exact ⟨0, by simp⟩
  · rw [List.concat_eq_append] at hts ⊢
    refine ⟨u.startLine + 1, fun t ht => ?_⟩
    rcases List.mem_append.1 ht with ht | ht
    · have hle := (hts.above_of_mem_front ht).stopLine_le
      have hone := hts.oneLine t (List.mem_append_left _ ht)
      omega
    · rw [List.mem_singleton.1 ht]
      omega

/-- The lines of the folds found, pair by pair. -/
theorem found_pairwise (hts : InLines ts) :
    (reading mark ts).flush.found.Pairwise fun f g =>
      f.Apart g ∧ f.startLine ≠ g.startLine ∧ f.stopLine ≠ g.stopLine := by
  obtain ⟨line, hline⟩ := hts.exists_lt
  have htidy : Tidy (reading mark ts).flush line :=
    (tidy_reading hts fun t ht _ => hline t ht).flush
  refine htidy.found_apart.imp_of_mem fun {f g} _ hg ⟨hstop, hstart⟩ => ?_
  have hle := (htidy.found_lt g hg).1
  exact ⟨Fold.apart_iff.2 (by omega), by omega, by omega⟩

theorem commentCandidates_pairwise (mark : List Char → Marker) (hts : InLines ts) :
    (foldCandidates mark .onlyComments ts).Pairwise Fold.Apart := by
  have hfound : (reading mark ts).flush.found.reverse.Pairwise Fold.Apart :=
    List.pairwise_reverse.2 ((found_pairwise hts).imp fun h => h.1.symm)
  have hsub :
      (foldCandidates mark .onlyComments ts).Sublist (reading mark ts).flush.found.reverse := by
    simp only [foldCandidates, FoldOptions.onlyComments, Bool.or_self, if_true, List.append_nil,
      Bool.false_eq_true, if_false]
    exact List.filter_sublist
  exact hfound.sublist hsub

/-- **Two such folds share no first and no last line**, unless they are the same. -/
theorem CommentFold.unique {kind kind' : FoldKind} {first' last' : Token} (hts : InLines ts)
    (h : CommentFold mark ts kind first last) (h' : CommentFold mark ts kind' first' last')
    (hline : first.startLine = first'.startLine ∨ last.startLine = last'.startLine) :
    kind = kind' ∧ first = first' ∧ last = last' := by
  have : Std.Symm fun f g : Fold =>
      (f.startLine = g.startLine ∨ f.stopLine = g.stopLine) → f = g :=
    ⟨fun f g hfg hgf => (hfg (hgf.imp Eq.symm Eq.symm)).symm⟩
  have hpairwise : (reading mark ts).flush.found.Pairwise fun f g =>
      (f.startLine = g.startLine ∨ f.stopLine = g.stopLine) → f = g := by
    refine (found_pairwise hts).imp fun {f g} ⟨_, hstart, hstop⟩ hsome => ?_
    exact absurd hsome (by omega)
  have heq : foldBetween kind first last = foldBetween kind' first' last' :=
    hpairwise.forall_of_forall (fun _ _ _ => rfl) h.mem_found h'.mem_found hline
  simp only [foldBetween, Fold.mk.injEq, Option.some.injEq] at heq
  obtain ⟨hfirst, hlast, hkind⟩ := heq
  obtain ⟨before, inner, after, hsplit⟩ := h.exists_split
  obtain ⟨before', inner', after', hsplit'⟩ := h'.exists_split
  refine ⟨hkind, ?_, ?_⟩
  · exact hts.eq_of_comment (by simp [hsplit]) (by simp [hsplit']) h.kinds.1 h'.kinds.1 hfirst
  · exact hts.eq_of_comment (by simp [hsplit]) (by simp [hsplit']) h.kinds.2 h'.kinds.2 hlast

/-- **The folds of comments are the regions and the runs of comments.** For every text, a
fold is there just when it goes from the opening marker of a region to the closing one
that matches it, or from the first to the last comment of a run. Each region and each run
has a fold of its own, the folds are in order, and nesting neither drops nor merges any. -/
theorem comment_folds_exact (mark : List Char → Marker) (d : Dialect) (text : String) :
    (∀ f, f ∈ folds mark .onlyComments (tokenize d text).tokens ↔
      ∃ kind first last, CommentFold mark (tokenize d text).tokens kind first last ∧
        f = foldBetween kind first last) ∧
    (∀ kind first last kind' first' last',
      CommentFold mark (tokenize d text).tokens kind first last →
      CommentFold mark (tokenize d text).tokens kind' first' last' →
      (first.startLine = first'.startLine ∨ last.startLine = last'.startLine) →
      kind = kind' ∧ first = first' ∧ last = last') ∧
    (folds mark .onlyComments (tokenize d text).tokens).Pairwise Fold.Leads ∧
    (folds mark .onlyComments (tokenize d text).tokens).Perm
      (foldCandidates mark .onlyComments (tokenize d text).tokens) := by
  have hts := tokenize_inLines d text
  have hperm := folds_perm (commentCandidates_pairwise mark hts)
  refine ⟨fun f => ?_, ?_, (ordered_pairwise _).sublist (folds_sublist _ _ _), hperm⟩
  · rw [hperm.mem_iff, mem_commentCandidates_iff_commentFold hts]
  · intro kind first last kind' first' last' h h' hline
    exact h.unique hts h' hline

/-- A region with a run in it, and behind it a closing marker with nothing to close. -/
theorem comment_folds_exact_nested :
    ⟨0, 3, some .region⟩ ∈
      folds Marker.ofComment .onlyComments
        (tokenize .systemd "#region\n# a\n# b\n#endregion\n;endregion").tokens ∧
    ⟨1, 2, some .comment⟩ ∈
      folds Marker.ofComment .onlyComments
        (tokenize .systemd "#region\n# a\n# b\n#endregion\n;endregion").tokens ∧
    ∀ last, CommentFold Marker.ofComment
      (tokenize .systemd "#region\n# a\n# b\n#endregion\n;endregion").tokens
      .region ⟨.comment, ⟨{}, ⟨7, 0, 7⟩⟩, "#region"⟩ last → last.startLine = 3 := by
  obtain ⟨hmem, hunique, -⟩ :=
    comment_folds_exact Marker.ofComment .systemd "#region\n# a\n# b\n#endregion\n;endregion"
  have hregion : CommentFold Marker.ofComment
      (tokenize .systemd "#region\n# a\n# b\n#endregion\n;endregion").tokens .region
      ⟨.comment, ⟨{}, ⟨7, 0, 7⟩⟩, "#region"⟩
      ⟨.comment, ⟨⟨16, 3, 0⟩, ⟨26, 3, 10⟩⟩, "#endregion"⟩ :=
    @CommentFold.region _ _ []
      [⟨.comment, ⟨⟨8, 1, 0⟩, ⟨11, 1, 3⟩⟩, "# a"⟩, ⟨.comment, ⟨⟨12, 2, 0⟩, ⟨15, 2, 3⟩⟩, "# b"⟩]
      [⟨.comment, ⟨⟨27, 4, 0⟩, ⟨37, 4, 10⟩⟩, ";endregion"⟩] _ _
      (by decide +kernel) (by decide +kernel)
      (.plain (by decide +kernel) (.plain (by decide +kernel) .nil)) (by decide +kernel)
  have hrun : CommentFold Marker.ofComment
      (tokenize .systemd "#region\n# a\n# b\n#endregion\n;endregion").tokens .comment
      ⟨.comment, ⟨⟨8, 1, 0⟩, ⟨11, 1, 3⟩⟩, "# a"⟩ ⟨.comment, ⟨⟨12, 2, 0⟩, ⟨15, 2, 3⟩⟩, "# b"⟩ :=
    @CommentFold.run _ _ [⟨.comment, ⟨{}, ⟨7, 0, 7⟩⟩, "#region"⟩] []
      [⟨.comment, ⟨⟨16, 3, 0⟩, ⟨26, 3, 10⟩⟩, "#endregion"⟩,
        ⟨.comment, ⟨⟨27, 4, 0⟩, ⟨37, 4, 10⟩⟩, ";endregion"⟩] _ _
      (by decide +kernel) (by decide +kernel) (by decide +kernel) (by decide +kernel)
  refine ⟨(hmem _).2 ⟨_, _, _, hregion, rfl⟩, (hmem _).2 ⟨_, _, _, hrun, rfl⟩, fun last hlast => ?_⟩
  rw [(hunique _ _ _ _ _ _ hlast hregion (Or.inl rfl)).2.2]
  rfl

end UnitFile
