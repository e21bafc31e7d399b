import UnitFile.Proofs.Growth
import UnitFile.Proofs.LaidOut
/-!
# How far reuse reaches

Reuse is sound if trust is given too seldom, but then it is of no use. Here is how much
is trusted at least: whatever comes after an edit, the tokens before it are, up to one
behind an escaped token with a blank or a `\r` after it. So a text is taken up no earlier
than at the last line before the edit that begins with a token and carries on no escaped
line (`reuse_reaches_edit`).

Trust takes what is between two tokens symbol by symbol from its start, and the layout of
a text grows symbol by symbol at its end. The two meet in `crossed?`, a run of steps that
can be taken further at its end (`LaidOut.exists_crossed`).
-/

namespace UnitFile

open Lexer Text Grammar

namespace Lexer

variable {d : Dialect} {earlier ts us vs : List Token} {t : Token} {trailing : Bool}
variable {text gap rest p u : List Char} {l l' : Location} {c : Char}

/-! ## Gaps taken further -/

/-- The flag and the place behind one symbol of a gap, if the symbol makes no token. -/
def crossSymbol? : Bool × Location → Symbol → Option (Bool × Location)
  | (_, l), .lineBreak b => some (false, l.nextLine b.width)
  | (trailing, l), .char c => if isBlank c || trailing then some (trailing, l.after c) else none

/-- The flag and the place behind a gap. -/
def crossed? (start : Bool × Location) (gap : List Char) : Option (Bool × Location) :=
  (symbols gap).foldlM crossSymbol? start

/-- **A gap is crossed one symbol after the other.** -/
theorem crossGap?_eq_foldlM (trailing : Bool) (l : Location) (ss : List Symbol) :
    crossGap? trailing l ss = (ss.foldlM crossSymbol? (trailing, l)).map Prod.snd := by
  induction ss generalizing trailing l with
  | nil => rfl
  | cons s ss ih =>
    rw [List.foldlM_cons]
    cases s with
    | lineBreak b => exact ih ..
    | char c =>
      rw [crossGap?, crossSymbol?]
      split
      · exact ih ..
      · rfl

/-- One more character. -/
theorem crossed?_concat {start : Bool × Location} (h : crossed? start gap = some (trailing, l))
    (hc : c ≠ '\n') (hskip : trailing = true ∨ isBlank c = true) :
    crossed? start (gap ++ [c]) = some (trailing, l.after c) := by
  have hone : symbols [c] = [.char c] := symbols_of_notMem (by simpa using Ne.symm hc)
  rw [crossed?, symbols_append _ _ (by simp [hc]), hone, List.foldlM_append, ← crossed?, h]
  rcases hskip with rfl | hblank
  · simp [crossSymbol?]
  · simp [crossSymbol?, hblank]

/-- One more line break, which may take a `\r` from the gap. -/
theorem crossed?_lineBreak {start : Bool × Location}
    (h : crossed? start gap = some (trailing, l)) (b : LineBreak) :
    crossed? start (gap ++ b.chars) = some (false, l.nextLine b.width) := by
  by_cases hcut : SplitsBreak gap b.chars
  · -- the `\r` was a character and is part of the break now, which leads to the same place
    obtain ⟨hr, hn⟩ := hcut
    obtain ⟨front, rfl⟩ := List.getLast?_eq_some_iff.1 hr
    obtain rfl : b = .lf := by cases b <;> simp_all [LineBreak.chars]
    obtain ⟨hbefore, hwhole⟩ := symbols_split_break front []
    rw [crossed?, hbefore, List.foldlM_append] at h
    obtain ⟨⟨before, l₀⟩, hfront, hr⟩ := Option.bind_eq_some_iff.1 h
    obtain rfl : l = l₀.after '\r' := by
      simp only [List.foldlM_cons, List.foldlM_nil, crossSymbol?] at hr
      split at hr
      · simpa using (congrArg Prod.snd (Option.some.inj hr)).symm
      · contradiction
    show (symbols (front ++ ['\r'] ++ ['\n'])).foldlM crossSymbol? start = _
    rw [hwhole, List.foldlM_append, hfront]
    rfl
  · have hone : symbols b.chars = [.lineBreak b] := by cases b <;> rfl
    rw [crossed?, symbols_append _ _ (fun hr hn => hcut ⟨hr, hn⟩), hone, List.foldlM_append,
      ← crossed?, h]
    rfl

/-- **Between the last token laid out and the place reached is an inert gap.** -/
theorem LaidOut.exists_crossed (h : LaidOut earlier trailing text l ts) :
    ∃ front gap, text = front ++ gap ∧ byteLength front = (gapStart ts.getLast?).offset ∧
      crossed? (ts.getLast?.any isClosedHeader, gapStart ts.getLast?) gap = some (trailing, l) := by
  induction h with
  | start => exact ⟨[], [], rfl, rfl, rfl⟩
  | skip h hc hskip ih =>
    obtain ⟨front, gap, rfl, hlen, hgap⟩ := ih
    exact ⟨front, gap ++ [_], by simp, hlen, crossed?_concat hgap hc hskip⟩
  | lineBreak h b ih =>
    obtain ⟨front, gap, rfl, hlen, hgap⟩ := ih
    exact ⟨front, gap ++ b.chars, by simp, hlen, crossed?_lineBreak hgap b⟩
  | @token trailing text l ts t h ht hrange ih =>
    refine ⟨text ++ t.text.toList, [], by simp, ?_, ?_⟩
    · simp [gapStart, hrange, h.offset_eq]
    · simp [gapStart, hrange, crossed?, symbols]

/-- **A gap begins with a blank or a break**, if it trails no section header. -/
theorem head_of_crossGap? (h : crossGap? false l (symbols gap) = some l') (hc : c ∈ gap.head?) :
    isBlank c = true ∨ c = '\r' ∨ c = '\n' := by
  revert h
  fun_cases symbols gap with
  | case1 => simp at hc
  | case2 cs => exact fun _ => Or.inr (Or.inl (by simpa using hc.symm))
  | case3 cs => exact fun _ => Or.inr (Or.inr (by simpa using hc.symm))
  | case4 x cs hcrlf hlf =>
    intro h
    obtain rfl : x = c := by simpa using hc
    rw [crossGap?] at h
    split at h
    · rename_i hblank
      exact Or.inl (by simpa using hblank)
    · contradiction

/-! ## Trust before an edit -/

/-- **A visible token that is found is trusted.** -/
theorem afterTrusted?_of_foundNext {before : Option Token}
    (h : FoundNext (before.any (endsEscaped d)) (before.any isClosedHeader) (gapStart before)
      text t gap rest) (hvisible : t.kind.isVisible = true) :
    afterTrusted? d before text t = some rest := by
  have hstart := (crossGap?_le h.crossed).1
  have hinert : isInertGap d before gap t.range.start = true := by
    simp only [isInertGap, h.crossed, BEq.rfl, Bool.and_true, Bool.not_eq_true',
      Bool.and_eq_false_imp, Option.any_eq_false, bne_eq_false_iff_eq]
    exact h.head
  have hplaced : isWellPlaced t = true := by
    simp only [isWellPlaced, hvisible, h.stop, Bool.true_and, beq_iff_eq]
    rfl
  unfold afterTrusted?
  dsimp only
  rw [if_neg (by omega), h.split, List.append_assoc, hstart, Nat.add_sub_cancel_left,
    splitAtByte?_append]
  simp [hinert, hplaced, afterStart?_eq_some]

/-- An escaped token is no section header. -/
theorem isClosedHeader_of_endsEscaped {s : Token} (h : endsEscaped d s = true) :
    isClosedHeader s = false := by
  cases hk : s.kind <;> simp_all [endsEscaped, isClosedHeader, Kind.isEscapable]

/-- What follows an escaped token in a text is no blank and no `\r`, so that the `\n` of
a carried line would follow at once. -/
def Settled (d : Dialect) (text : List Char) (s : Token) : Prop :=
  endsEscaped d s = true →
    (charAt? s.range.stop.offset text).any (fun c => isBlank c || c == '\r') = false

instance (d : Dialect) (text : List Char) (s : Token) : Decidable (Settled d text s) :=
  inferInstanceAs (Decidable (_ = true → _ = false))

/-- **Behind an escaped token a gap begins with a `\n`**, if nothing else is left for it. -/
theorem Settled.eq_newline {s : Token} (h : Settled d text s) (hs : endsEscaped d s = true)
    (hcross : crossGap? (isClosedHeader s) l (symbols gap) = some l') (hc : c ∈ gap.head?)
    (hchar : charAt? s.range.stop.offset text = some c) : c = '\n' := by
  have hfollow : isBlank c = false ∧ c ≠ '\r' := by
    have hany := h hs
    rw [hchar] at hany
    simpa using hany
  rw [isClosedHeader_of_endsEscaped hs] at hcross
  have hhead := head_of_crossGap? hcross hc
  simpa [hfollow] using hhead

/-- **A token that ends before an edit is found**, whatever comes after the edit. -/
theorem LaidOut.foundNext (h : LaidOut earlier trailing (p ++ u) l (us ++ t :: vs))
    (hstop : t.range.stop.offset ≤ byteLength p) (hsettled : ∀ s ∈ us.getLast?, Settled d p s) :
    ∃ front gap rest, p = front ++ (gap ++ t.text.toList ++ rest) ∧
      byteLength front = (gapStart us.getLast?).offset ∧ ∀ v,
        FoundNext (us.getLast?.any (endsEscaped d)) (us.getLast?.any isClosedHeader)
          (gapStart us.getLast?) (gap ++ t.text.toList ++ (rest ++ v)) t gap (rest ++ v) := by
  obtain ⟨trailing', before, after, hbefore, htext, hend, -⟩ := h.exists_split
  obtain ⟨front, gap, rfl, hfront, hgap⟩ := hbefore.exists_crossed
  have hcross : crossGap? (us.getLast?.any isClosedHeader) (gapStart us.getLast?) (symbols gap) =
      some t.range.start := by
    rw [crossGap?_eq_foldlM, ← crossed?, hgap]
    rfl
  have hlen : byteLength (front ++ gap ++ t.text.toList) ≤ byteLength p := by
    rw [hend, Location.past_offset, hbefore.offset_eq] at hstop
    rwa [byteLength_append]
  obtain ⟨rest, rfl, -⟩ := exists_append_of_byteLength_le htext hlen
  refine ⟨front, gap, rest, by simp, hfront, fun v => ⟨rfl, ?_, hcross, hend⟩⟩
  intro hescaped c hc
  obtain ⟨s, hs, hse⟩ := (Option.any_eq_true _ _).1 hescaped
  rw [hs] at hcross hfront hsettled
  have hchar : charAt? s.range.stop.offset (front ++ gap ++ t.text.toList ++ rest) = some c := by
    have hend : s.range.stop.offset = byteLength front := hfront.symm
    rw [hend, List.append_assoc, List.append_assoc, charAt?_append, List.head?_append,
      Option.mem_def.1 hc]
    rfl
  exact (hsettled s rfl).eq_newline hse hcross hc hchar

/-- **One token further**: behind a trusted token the next one is trusted too, if it ends
before the edit. -/
theorem LaidOut.afterTrusted?_eq_some {v front : List Char}
    (h : LaidOut earlier trailing (p ++ u) l (us ++ t :: vs))
    (hstop : t.range.stop.offset ≤ byteLength p) (hsettled : ∀ s ∈ us.getLast?, Settled d p s)
    (htext : p ++ v = front ++ text) (hfront : byteLength front = (gapStart us.getLast?).offset) :
    ∃ front' rest, afterTrusted? d us.getLast? text t = some rest ∧ p ++ v = front' ++ rest ∧
      byteLength front' = t.range.stop.offset := by
  obtain ⟨-, -, -, -, -, -, hsound⟩ := h.exists_split
  obtain ⟨front₀, gap, rest, rfl, hlen, hfound⟩ := h.foundNext hstop hsettled
  -- both fronts end where the trusted token does
  have hcut := splitAtByte?_append front₀ (gap ++ t.text.toList ++ (rest ++ v))
  have hsame : front₀ ++ (gap ++ t.text.toList ++ (rest ++ v)) = front ++ text := by
    rw [← htext]
    simp
  rw [hsame, hlen, ← hfront, splitAtByte?_append] at hcut
  obtain ⟨rfl, rfl⟩ := Prod.mk.inj (Option.some.inj hcut)
  refine ⟨front ++ (gap ++ t.text.toList), rest ++ v,
    afterTrusted?_of_foundNext (hfound v) hsound.visible, by simp, ?_⟩
  have hstart := (crossGap?_le (hfound v).crossed).1
  rw [(hfound v).stop, Location.past_offset, hstart, byteLength_append, byteLength_append, hlen]
  omega

/-- **All tokens before an edit are trusted.** -/
theorem LaidOut.length_lt_trustedAfter {v front : List Char}
    (h : LaidOut earlier trailing (p ++ u) l (us ++ ts ++ t :: vs))
    (hstop : ∀ s ∈ ts ++ [t], s.range.stop.offset ≤ byteLength p)
    (hsettled : ∀ s ∈ us ++ ts, Settled d p s)
    (htext : p ++ v = front ++ text) (hfront : byteLength front = (gapStart us.getLast?).offset) :
    ts.length < trustedAfter d us.getLast? text (ts ++ t :: vs) := by
  -- `us` are the tokens trusted already, and `front` is the new text up to the last of them
  induction ts generalizing us front text with
  | nil =>
    rw [List.append_nil] at h hsettled
    obtain ⟨front', rest, hrest, -, -⟩ := h.afterTrusted?_eq_some (hstop t (by simp))
      (fun s hs => hsettled s (List.mem_of_getLast? hs)) htext hfront
    rw [List.nil_append, trustedAfter, hrest]
    exact Nat.succ_pos _
  | cons s ts ih =>
    have hs : LaidOut earlier trailing (p ++ u) l (us ++ s :: (ts ++ t :: vs)) := by simpa using h
    obtain ⟨front', rest, hrest, htext', hfront'⟩ := hs.afterTrusted?_eq_some (hstop s (by simp))
      (fun x hx => hsettled x (by simp [List.mem_of_getLast? hx])) htext hfront
    have hlast : (us ++ [s]).getLast? = some s := List.getLast?_concat ..
    have hnext : ts.length < trustedAfter d (us ++ [s]).getLast? rest (ts ++ t :: vs) :=
      ih (by simpa using h) (fun x hx => hstop x (List.mem_cons_of_mem _ hx))
        (by simpa using hsettled) htext' (by rw [hlast]; exact hfront')
    rw [hlast] at hnext
    rw [List.cons_append, trustedAfter, hrest, List.length_cons]
    exact Nat.succ_lt_succ hnext

/-! ## The resume point -/

/-- **The resume point is no earlier than a token that can be resumed at.** -/
theorem lastResumable_reaches (code : Option Token) (index : Nat) (best : ResumePoint)
    (vs : List Token) (hcolumn : t.range.start.column = 0)
    (hcode : (lastCode code us).any (endsEscaped d) = false) :
    ∃ n, ∃ w ∈ t :: vs, lastResumable d code index best (us ++ t :: vs) = ⟨n, w.range.start⟩ ∧
      index + us.length ≤ n := by
  induction us generalizing code index best with
  | nil =>
    have hcode : code.any (endsEscaped d) = false := hcode
    rw [List.nil_append, lastResumable]
    simp only [hcolumn, hcode, BEq.rfl, Bool.not_false, Bool.and_true, if_true]
    -- resumable as it is, the token gives way to a later one only
    rcases lastResumable_cases (d := d) (if t.kind = .comment then code else some t) (index + 1)
        ⟨index, t.range.start⟩ vs with hbest | ⟨xs, w, ys, rfl, hpoint, -, -⟩
    · exact ⟨index, t, List.mem_cons_self, hbest, by simp⟩
    · exact ⟨_, w, by simp, hpoint, by simp; omega⟩
  | cons s us ih =>
    obtain ⟨n, w, hw, hpoint, hle⟩ := ih (if s.kind = .comment then code else some s) (index + 1)
      (if s.range.start.column == 0 && !code.any (endsEscaped d) then ⟨index, s.range.start⟩
        else best) hcode
    exact ⟨n, w, hw, hpoint, by rw [List.length_cons]; omega⟩

/-- **Reuse goes on from the last line before the edit**, or from further on. -/
theorem LaidOut.resumePoint_reaches (h : LaidOut earlier trailing (p ++ u) l (us ++ t :: vs))
    (v : List Char) (hstop : t.range.stop.offset ≤ byteLength p)
    (hcolumn : t.range.start.column = 0) (hcode : (lastCode none us).any (endsEscaped d) = false)
    (hsettled : ∀ s ∈ us, Settled d p s) :
    us.length ≤ (resumePoint d (p ++ v) (us ++ t :: vs)).reused ∧
      t.range.start.offset ≤ (resumePoint d (p ++ v) (us ++ t :: vs)).start.offset := by
  obtain ⟨-, -, -, -, -, hend, -⟩ := h.exists_split
  have hself : t.range.start.offset ≤ t.range.stop.offset := by
    rw [hend, Location.past_offset]
    omega
  have hpairs := List.pairwise_append.1 h.pairwise
  have hbefore : ∀ s ∈ us ++ [t], s.range.stop.offset ≤ byteLength p := by
    intro s hs
    rcases List.mem_append.1 hs with hs | hs
    · have habove : s.range.stop.offset ≤ t.range.start.offset :=
        hpairs.2.2 s hs t List.mem_cons_self
      omega
    · rw [List.mem_singleton.1 hs]
      exact hstop
  have hall : LaidOut earlier trailing (p ++ u) l ([] ++ us ++ t :: vs) := h
  have hlt : us.length < trusted d (p ++ v) (us ++ t :: vs) :=
    hall.length_lt_trustedAfter hbefore hsettled (List.nil_append _).symm rfl
  obtain ⟨more, hmore⟩ := Nat.exists_eq_add_of_lt hlt
  obtain ⟨n, w, hw, hpoint, hle⟩ :=
    lastResumable_reaches none 0 {} (vs.take more) hcolumn hcode
  have hresume : resumePoint d (p ++ v) (us ++ t :: vs) = ⟨n, w.range.start⟩ := by
    rw [resumePoint, hmore, Nat.add_assoc, List.take_length_add_append, List.take_succ_cons, hpoint]
  rw [hresume]
  refine ⟨by simpa using hle, ?_⟩
  rcases List.mem_cons.1 hw with rfl | hw
  · exact Nat.le_refl _
  · have hafter : t.range.stop.offset ≤ w.range.start.offset :=
      List.rel_of_pairwise_cons hpairs.2.1 (List.mem_of_mem_take hw)
    exact hself.trans hafter

end Lexer

/-- **Reuse reaches the edit.** Of two texts with the same start `p`, the second is taken up
no earlier than at a token of the first that ends in `p`, begins its line and carries on no
escaped line, if what follows the escaped tokens before it is settled. -/
theorem reuse_reaches_edit (d : Dialect) (p u v : String) (k : Nat) (t : Token)
    (ht : (tokenize d (p ++ u)).tokens[k]? = some t)
    (hstop : t.range.stop.offset ≤ byteLength p.toList) (hcolumn : t.range.start.column = 0)
    (hcode : (lastCode none ((tokenize d (p ++ u)).tokens.take k)).any (endsEscaped d) = false)
    (hsettled : ∀ s ∈ (tokenize d (p ++ u)).tokens.take k, Settled d p.toList s) :
    k ≤ (resumePoint d (p ++ v).toList (tokenize d (p ++ u)).tokens).reused ∧
      t.range.start.offset ≤
        (resumePoint d (p ++ v).toList (tokenize d (p ++ u)).tokens).start.offset := by
  obtain ⟨trailing, l, hlaid⟩ := laidOut_retokenize d [] (p ++ u)
  rw [retokenize_nil, String.toList_append] at hlaid
  obtain ⟨hk, htk⟩ := List.getElem?_eq_some_iff.1 ht
  have hsplit : (tokenize d (p ++ u)).tokens =
      (tokenize d (p ++ u)).tokens.take k ++ t :: (tokenize d (p ++ u)).tokens.drop (k + 1) := by
    rw [← htk, ← List.drop_eq_getElem_cons, List.take_append_drop]
  rw [hsplit] at hlaid
  have hreach := hlaid.resumePoint_reaches v.toList hstop hcolumn hcode hsettled
  rwa [← hsplit, List.length_take_of_le hk.le, ← String.toList_append] at hreach

/-- Over breaks with `\r`, what trails a header, an escaped line and a comment, up to the last
line before the edit. -/
theorem reuse_reaches_edit_escaped :
    6 ≤ (resumePoint .systemd ("[A] é\r\n\r\nB=1\\\n 2\n#c\nC=3\n" ++ " x").toList
        (tokenize .systemd ("[A] é\r\n\r\nB=1\\\n 2\n#c\nC=3\n" ++ "D")).tokens).reused ∧
      21 ≤ (resumePoint .systemd ("[A] é\r\n\r\nB=1\\\n 2\n#c\nC=3\n" ++ " x").toList
        (tokenize .systemd ("[A] é\r\n\r\nB=1\\\n 2\n#c\nC=3\n" ++ "D")).tokens).start.offset :=
  reuse_reaches_edit .systemd "[A] é\r\n\r\nB=1\\\n 2\n#c\nC=3\n" "D" " x" 6
    ⟨.key, ⟨⟨21, 5, 0⟩, ⟨22, 5, 1⟩⟩, "C"⟩ (by decide +kernel) (by decide +kernel) rfl
    (by decide +kernel) (by decide +kernel)

/-- With a blank behind the backslash nothing after it is trusted. -/
example : (resumePoint .systemd "B=1\\ \nC=3\nD=5".toList
    (tokenize .systemd "B=1\\ \nC=3\nD=4").tokens).reused = 0 := by decide +kernel

end UnitFile
