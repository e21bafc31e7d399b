import UnitFile.Proofs.Places
import UnitFile.Proofs.Reuse
import UnitFile.Proofs.Steps
/-!
# How the tokens lie in a text

A text that has been read is put together of tokens and of what is skipped: blanks,
line breaks, and what trails a closed section header on its line. `LaidOut` says so,
with the place that is counted on the way. From it follow where each token lies
(`LaidOut.exists_split`), the order of the tokens (`LaidOut.pairwise`), and that lines and
columns are counted right (`LaidOut.across_eq`).

Two things lay tokens out. Trust in the tokens of an earlier text does
(`laidOut_of_trusted`), whatever these tokens are, and so does every step of the lexer
(`Tracks.feed`). Reading with earlier tokens is the one and then the other
(`laidOut_retokenize`).
-/

namespace UnitFile

open Lexer Text Grammar

/-- A token with characters, and with no `\n` among them. -/
structure Token.OnLine (t : Token) : Prop where
  ne_nil : t.text.toList ≠ []
  oneLine : '\n' ∉ t.text.toList

/-- A visible token that holds a part of one line, if it is not an earlier one. -/
structure Token.Sound (earlier : List Token) (t : Token) : Prop where
  visible : t.kind.isVisible = true
  onLine : t ∈ earlier ∨ t.OnLine

/-- A token that ends at or before the start of another one. -/
def Token.Before (t u : Token) : Prop :=
  t.range.stop.offset ≤ u.range.start.offset

namespace Lexer

variable {d : Dialect} {earlier ts : List Token} {trailing : Bool} {text gap : List Char}
variable {l l' : Location} {c : Char}

/-! ## Texts laid out -/

/-- **The tokens `ts` laid out in a text**, which is read up to the place `l`. The flag
says that a closed section header comes before, on the same line. -/
inductive LaidOut (earlier : List Token) : Bool → List Char → Location → List Token → Prop
  | start : LaidOut earlier false [] {} []
  /-- A blank, or what trails a closed header. -/
  | skip {trailing : Bool} {text : List Char} {l : Location} {ts : List Token} {c : Char}
      (h : LaidOut earlier trailing text l ts) (hc : c ≠ '\n')
      (hskip : trailing = true ∨ isBlank c = true) :
      LaidOut earlier trailing (text ++ [c]) (l.after c) ts
  /-- A line break, behind which nothing trails a header any more. -/
  | lineBreak {trailing : Bool} {text : List Char} {l : Location} {ts : List Token}
      (h : LaidOut earlier trailing text l ts) (b : LineBreak) :
      LaidOut earlier false (text ++ b.chars) (l.nextLine b.width) ts
  /-- A token whose range begins at the place reached. -/
  | token {trailing : Bool} {text : List Char} {l : Location} {ts : List Token} {t : Token}
      (h : LaidOut earlier trailing text l ts) (ht : t.Sound earlier)
      (hrange : t.range = ⟨l, l.past t.text.toList⟩) :
      LaidOut earlier (isClosedHeader t) (text ++ t.text.toList) (l.past t.text.toList) (ts ++ [t])

namespace LaidOut

/-- The place reached is as many bytes on as the text has. -/
theorem offset_eq (h : LaidOut earlier trailing text l ts) : l.offset = byteLength text := by
  induction h with
  | start => rfl
  | skip h hc hskip ih => simp [Location.after, ih]
  | lineBreak h b ih => simp [ih]
  | token h ht hrange ih => simp [ih]

/-- **The place reached is the one counted through the text**, if no token reaches over
a line break. -/
theorem across_eq (h : LaidOut earlier trailing text l ts)
    (hts : ∀ t ∈ ts, '\n' ∉ t.text.toList) : l = ({} : Location).across text := by
  induction h with
  | start => rfl
  | skip h hc hskip ih => rw [Location.across_concat hc, ← ih hts]
  | lineBreak h b ih => rw [Location.across_append, ← ih hts, Location.across_lineBreak]
  | @token trailing text l ts t h ht hrange ih =>
    have hline : '\n' ∉ t.text.toList := hts t (by simp)
    rw [Location.across_append, ← ih fun u hu => hts u (List.mem_append_left _ hu),
      Location.across_of_notMem hline]

/-- **Every token lies where the tokens before it are laid out**, and its text is what
follows there. -/
theorem exists_split {us vs : List Token} {t : Token}
    (h : LaidOut earlier trailing text l (us ++ t :: vs)) :
    ∃ trailing' before after, LaidOut earlier trailing' before t.range.start us ∧
      text = before ++ t.text.toList ++ after ∧
      t.range.stop = t.range.start.past t.text.toList ∧ t.Sound earlier := by
  generalize hts : us ++ t :: vs = ts at h
  induction h generalizing vs with
  | start => simp at hts
  | @skip _ _ _ _ c h hc hskip ih =>
    obtain ⟨trailing', before, after, hbefore, rfl, hrest⟩ := ih hts
    exact ⟨trailing', before, after ++ [c], hbefore, by simp, hrest⟩
  | lineBreak h b ih =>
    obtain ⟨trailing', before, after, hbefore, rfl, hrest⟩ := ih hts
    exact ⟨trailing', before, after ++ b.chars, hbefore, by simp, hrest⟩
  | @token trailing text l ts u h hu hrange ih =>
    rcases List.eq_nil_or_concat vs with rfl | ⟨vs, v, rfl⟩
    · -- the token laid out last
      obtain ⟨rfl, rfl⟩ := List.append_singleton_inj.1 hts
      exact ⟨trailing, text, [], by rw [hrange]; exact h, by simp, by rw [hrange], hu⟩
    · rw [List.concat_eq_append, ← List.cons_append, ← List.append_assoc] at hts
      obtain ⟨trailing', before, after, hbefore, rfl, hrest⟩ :=
        ih (List.append_singleton_inj.1 hts).1
      exact ⟨trailing', before, after ++ u.text.toList, hbefore, by simp, hrest⟩

/-- A token ends no later than the text it is laid out in. -/
theorem stop_le {t : Token} (h : LaidOut earlier trailing text l ts) (ht : t ∈ ts) :
    t.range.stop.offset ≤ l.offset := by
  obtain ⟨us, vs, rfl⟩ := List.append_of_mem ht
  obtain ⟨trailing', before, after, hbefore, htext, hstop, -⟩ := h.exists_split
  have hstart := hbefore.offset_eq
  rw [h.offset_eq, htext, hstop, Location.past_offset, hstart, byteLength_append,
    byteLength_append]
  omega

/-- **The tokens are in order.** -/
theorem pairwise (h : LaidOut earlier trailing text l ts) : ts.Pairwise Token.Before := by
  induction h with
  | start => exact List.Pairwise.nil
  | skip h hc hskip ih => exact ih
  | lineBreak h b ih => exact ih
  | @token trailing text l ts t h ht hrange ih =>
    refine List.pairwise_append.2 ⟨ih, List.pairwise_singleton _ _, fun u hu v hv => ?_⟩
    rw [List.mem_singleton.1 hv, Token.Before, hrange]
    exact h.stop_le hu

/-- **The text of a token is the slice of the text at its range.** -/
theorem slice_eq {t : Token} (h : LaidOut earlier trailing text l ts) (ht : t ∈ ts) :
    slice? t.range.start.offset t.range.stop.offset text = some t.text.toList := by
  obtain ⟨us, vs, rfl⟩ := List.append_of_mem ht
  obtain ⟨trailing', before, after, hbefore, rfl, hstop, -⟩ := h.exists_split
  rw [hstop, Location.past_offset, hbefore.offset_eq]
  exact slice?_append ..

/-- What is skipped within a line. -/
theorem within (h : LaidOut earlier trailing text l ts) (hgap : '\n' ∉ gap)
    (hskip : trailing = true ∨ AllBlank gap) :
    LaidOut earlier trailing (text ++ gap) (l.past gap) ts := by
  induction gap generalizing text l with
  | nil => simpa using h
  | cons c gap ih =>
    simp only [List.mem_cons, not_or] at hgap
    have hc : LaidOut earlier trailing (text ++ [c]) (l.after c) ts :=
      h.skip (Ne.symm hgap.1) (hskip.imp_right fun hblank => hblank c (by simp))
    have hrest := ih hc hgap.2 (hskip.imp_right fun hblank x hx => hblank x (by simp [hx]))
    rw [Location.past_cons]
    simpa using hrest

/-- What is skipped between two trusted tokens. -/
theorem cross (h : LaidOut earlier trailing text l ts)
    (hcross : crossGap? trailing l (symbols gap) = some l') :
    ∃ trailing', LaidOut earlier trailing' (text ++ gap) l' ts := by
  induction gap using lines_induction generalizing trailing text l with
  | last gap hgap =>
    obtain ⟨hskip, rfl⟩ := (crossGap?_of_notMem hgap).1 hcross
    exact ⟨trailing, h.within hgap hskip⟩
  | line ln hln gap ih =>
    obtain ⟨hskip, hcross⟩ := (crossGap?_whole_append hln).1 hcross
    obtain ⟨trailing', hrest⟩ := ih ((h.within hln.1 hskip).lineBreak ln.stop) hcross
    refine ⟨trailing', ?_⟩
    simpa [Line.whole] using hrest

end LaidOut

/-! ## Trusted tokens -/

/-- **Trusted tokens are laid out in the new text**, whatever they come from. -/
theorem laidOut_of_trusted (before : Option Token) {front : List Char} {done vs : List Token}
    {u : Token}
    (hfront : LaidOut earlier (before.any isClosedHeader) front (gapStart before) done)
    (h : ts.length < trustedAfter d before text (ts ++ u :: vs)) (hts : ∀ t ∈ ts, t ∈ earlier) :
    ∃ trailing upto rest, LaidOut earlier trailing upto u.range.start (done ++ ts) ∧
      front ++ text = upto ++ rest := by
  induction ts generalizing before front text done with
  | nil =>
    rw [List.nil_append, trustedAfter] at h
    split at h
    · simp at h
    · rename_i rest hrest
      obtain ⟨gap, hu⟩ := foundNext_of_afterTrusted? hrest
      obtain ⟨trailing, hgap⟩ := hfront.cross hu.crossed
      exact ⟨trailing, front ++ gap, u.text.toList ++ rest, by simpa using hgap,
        by rw [hu.split]; simp⟩
  | cons t ts ih =>
    rw [List.cons_append, trustedAfter] at h
    split at h
    · simp at h
    · rename_i rest hrest
      obtain ⟨gap, ht⟩ := foundNext_of_afterTrusted? hrest
      obtain ⟨trailing, hgap⟩ := hfront.cross ht.crossed
      have hsound : t.Sound earlier :=
        ⟨visible_of_afterTrusted? hrest, Or.inl (hts t List.mem_cons_self)⟩
      have hnext := hgap.token hsound (by rw [← ht.stop])
      rw [← ht.stop] at hnext
      have hlen : ts.length < trustedAfter d (some t) rest (ts ++ u :: vs) := by simpa using h
      obtain ⟨trailing', upto, rest', hupto, hsplit⟩ :=
        ih (some t) hnext hlen fun x hx => hts x (List.mem_cons_of_mem _ hx)
      refine ⟨trailing', upto, rest', by simpa using hupto, ?_⟩
      rw [ht.split, ← hsplit]
      simp

/-! ## The token under way -/

/-- The token under way has been read from the end of `before` to the end of `text`,
where the machine is now. -/
structure Draft.Spans (t : Draft) (before text : List Char) (here : Location) : Prop where
  split : text = before ++ t.content.reverse ++ t.slack.reverse
  stop : t.stop = t.start.past t.content.reverse
  here : here = t.stop.past t.slack.reverse
  slack : AllBlank t.slack
  ne_nil : t.content ≠ []
  oneLine : '\n' ∉ t.content

namespace Draft.Spans

variable {t : Draft} {before : List Char} {here : Location}

/-- A character on its own. -/
theorem single (kind : Kind) (before : List Char) (l : Location) (hc : c ≠ '\n') :
    Spans ⟨kind, l, l.after c, [c], []⟩ before (before ++ [c]) (l.after c) where
  split := by simp
  stop := rfl
  here := rfl
  slack := by simp [AllBlank]
  ne_nil := by simp
  oneLine := by simpa using Ne.symm hc

/-- One more blank that waits. -/
theorem wait (h : t.Spans before text here) (hc : isBlank c = true) :
    (t.wait c).Spans before (text ++ [c]) (here.after c) where
  split := by simp [Draft.wait, h.split]
  stop := h.stop
  here := by
    rw [h.here, ← Location.past_singleton, ← Location.past_append]
    simp [Draft.wait]
  slack := by
    intro x hx
    rcases List.mem_cons.1 hx with rfl | hx
    · exact hc
    · exact h.slack x hx
  ne_nil := h.ne_nil
  oneLine := h.oneLine

theorem newline_notMem_slack (h : t.Spans before text here) : '\n' ∉ t.slack :=
  fun hmem => absurd (h.slack _ hmem) (by decide)

/-- One more character, which the blanks before it join. -/
theorem take (h : t.Spans before text here) (hc : c ≠ '\n') :
    (t.take c here).Spans before (text ++ [c]) (here.after c) where
  split := by simp [Draft.take, h.split]
  stop := by
    show here.after c = t.start.past (c :: (t.slack ++ t.content)).reverse
    rw [h.here, h.stop, ← Location.past_singleton, ← Location.past_append, ← Location.past_append]
    simp
  here := rfl
  slack := by simp [Draft.take, AllBlank]
  ne_nil := by simp [Draft.take]
  oneLine := by simp [Draft.take, Ne.symm hc, h.oneLine, h.newline_notMem_slack]

/-- The token that a draft makes is laid out behind those before it. -/
theorem laidOut (h : t.Spans before text here) (hk : t.kind.isVisible = true)
    (hbefore : LaidOut earlier trailing before t.start ts) :
    LaidOut earlier (isClosedHeader t.token) text here (ts ++ [t.token]) := by
  have htext : t.token.text.toList = t.content.reverse := by simp [Draft.token]
  have hsound : t.token.Sound earlier := by
    refine ⟨hk, Or.inr ⟨?_, ?_⟩⟩
    · simpa [htext] using h.ne_nil
    · simpa [htext] using h.oneLine
  have hrange : t.token.range = ⟨t.start, t.start.past t.token.text.toList⟩ := by
    rw [htext, ← h.stop]
    rfl
  have htoken := hbefore.token hsound hrange
  rw [htext, ← h.stop] at htoken
  rw [h.split, h.here]
  exact htoken.within (by simpa using h.newline_notMem_slack)
    (Or.inr fun x hx => h.slack x (List.mem_reverse.1 hx))

end Draft.Spans

/-! ## Runs of the lexer -/

/-- What the machine has found in the text it has read: between two tokens the tokens
are laid out up to where it is, within one they are laid out up to the start of that. -/
inductive Tracks (earlier : List Token) (text : List Char) (m : Machine) : Prop
  | between {trailing : Bool} (hk : m.state.kind.isVisible = false)
      (h : LaidOut earlier trailing text m.here m.finished.reverse)
      (htrail : m.state.kind = .discarded → trailing = true)
  | within {trailing : Bool} {before : List Char} (hk : m.state.kind.isVisible = true)
      (h : LaidOut earlier trailing before m.draft.start m.finished.reverse)
      (hdraft : m.draft.Spans before text m.here)

namespace Tracks

open Machine

variable {m : Machine}

/-- All tokens found, the one under way among them, are laid out in what is read. -/
theorem laidOut (h : Tracks earlier text m) (hm : Steady m) :
    ∃ trailing, LaidOut earlier trailing text m.here m.tokens := by
  cases h with
  | between hk h htrail => exact ⟨_, by rw [tokens_hidden hk]; exact h⟩
  | within hk h hdraft => exact ⟨_, by rw [tokens_visible hm hk]; exact hdraft.laidOut hk h⟩

/-- Within a token, the draft spans what is read since the tokens before it. -/
theorem exists_spans (h : Tracks earlier text m) (hk : m.state.kind.isVisible = true) :
    ∃ trailing before, LaidOut earlier trailing before m.draft.start m.finished.reverse ∧
      m.draft.Spans before text m.here := by
  cases h with
  | between hk' => rw [hk'] at hk; contradiction
  | within hk' h hdraft => exact ⟨_, _, h, hdraft⟩

/-- The assignment is a token like the others. -/
theorem sound_assignment (l : Location) : (tokenOf .assignment l ['=']).Sound earlier :=
  ⟨rfl, Or.inr ⟨by simp [tokenOf], by simp [tokenOf]⟩⟩

/-- A machine between two tokens, with nothing that trails a header. -/
theorem idle (hk : m.state.kind = .nothing)
    (h : LaidOut earlier trailing text m.here m.finished.reverse) : Tracks earlier text m :=
  .between (by rw [hk]; rfl) h fun hd => absurd (hk.symm.trans hd) (by decide)

/-- A machine that has begun a token, or has made it longer. -/
theorem of_draft {n : Machine} {t : Draft} {before : List Char} (hn : n.draft = t)
    (hk : t.kind.isVisible = true)
    (h : LaidOut earlier trailing before t.start n.finished.reverse)
    (hdraft : t.Spans before text n.here) : Tracks earlier text n := by
  subst hn
  exact .within hk h hdraft

/-- One character more. -/
theorem char (h : Tracks earlier text m) (hm : Steady m) (hc : c ≠ '\n') :
    Tracks earlier (text ++ [c]) (m.feed d (.char c)) := by
  have hhere : (m.feed d (.char c)).here = m.here.after c := rfl
  obtain ⟨closed, hlaid⟩ := h.laidOut hm
  cases feed_change (d := d) hm c with
  | skip hk hkind hfin =>
    have hvis := hidden_of_skip hk
    cases h with
    | within hk' => rw [hk'] at hvis; contradiction
    | between hk' h htrail =>
      refine .between (by rw [hkind, hvis]) ?_ fun hd => htrail (hkind ▸ hd)
      rw [hhere, hfin]
      exact h.skip hc (hk.elim (fun hb => Or.inr hb.2) fun hd => Or.inl (htrail hd))
  | begin kind hk hvis hne hb hfin hdraft hvalue hkey =>
    rw [tokens_hidden (by rw [hk]; rfl), ← hfin] at hlaid
    exact of_draft hdraft hvis hlaid (.single kind text m.here hc)
  | assign hk heq hfin hkind =>
    subst heq
    have htext : (tokenOf .assignment m.here ['=']).text.toList = ['='] := by simp [tokenOf]
    have htoken := hlaid.token (sound_assignment m.here) (by rw [htext]; rfl)
    have hreverse : (m.feed d (.char '=')).finished.reverse =
        m.tokens ++ [tokenOf .assignment m.here ['=']] := by
      rw [hfin, List.reverse_cons]
      rfl
    rw [htext, ← hreverse] at htoken
    exact idle hkind htoken
  | wait hk hb hfin hdraft =>
    obtain ⟨trailing, before, hbefore, hspans⟩ := h.exists_spans hk
    rw [← hfin] at hbefore
    exact of_draft hdraft hk hbefore (hspans.wait hb)
  | take hk hfin hdraft =>
    obtain ⟨trailing, before, hbefore, hspans⟩ := h.exists_spans hk
    rw [← hfin] at hbefore
    exact of_draft hdraft hk hbefore (hspans.take hc)
  | close hk heq hfin hkind =>
    have hheader : m.draft.kind = .header := hk
    have hvis : m.draft.kind.isVisible = true := by
      rw [hheader]
      rfl
    obtain ⟨trailing, before, hbefore, hspans⟩ := h.exists_spans hvis
    have hclosed : isClosedHeader (m.draft.take c m.here).token = true := by
      simp [isClosedHeader, Draft.token, Draft.take, hheader, heq]
    refine .between (by rw [hkind]; rfl) ?_ fun _ => hclosed
    rw [hhere, hfin, List.reverse_cons]
    exact (hspans.take hc).laidOut hvis hbefore

/-- **One symbol more.** -/
theorem feed (h : Tracks earlier text m) (hm : Steady m) {s : Symbol} (hs : s ≠ .char '\n') :
    Tracks earlier (text ++ s.chars) (m.feed d s) := by
  cases s with
  | char c => exact h.char hm fun hc => hs (by rw [hc])
  | lineBreak b =>
    obtain ⟨closed, hlaid⟩ := h.laidOut hm
    exact idle (feed_break m b).2 (hlaid.lineBreak b)

/-- **Any number of symbols more.** -/
theorem run (h : Tracks earlier text m) (hm : Steady m) {ss : List Symbol}
    (hss : .char '\n' ∉ ss) : Tracks earlier (text ++ ss.flatMap Symbol.chars) (m.run d ss) := by
  induction ss generalizing text m with
  | nil => simpa using h
  | cons s ss ih =>
    simp only [List.mem_cons, not_or] at hss
    have hrest := ih (h.feed (d := d) hm (Ne.symm hss.1)) (hm.feed s) hss.2
    rw [run_cons, List.flatMap_cons, ← List.append_assoc]
    exact hrest

end Tracks

/-- A `\n` is never read as a character. -/
theorem newline_notMem_symbols (cs : List Char) : .char '\n' ∉ symbols cs := by
  fun_induction symbols cs with
  | case1 => simp
  | case2 cs ih => simpa using ih
  | case3 cs ih => simpa using ih
  | case4 c cs hcrlf hlf ih =>
    have hc : ¬ '\n' = c := fun heq => hlf heq.symm
    simp [hc, ih]

/-- A machine that is taken up with tokens before it. -/
theorem steady_resume (tokens : List Token) (l : Location) :
    Machine.Steady (Machine.resume tokens l) := by
  unfold Machine.resume State.atLineStart
  split
  · exact .of_hidden rfl ⟨rfl, rfl⟩
  · exact .of_hidden rfl ⟨rfl, rfl⟩

theorem tracks_resume (h : LaidOut earlier trailing text l ts) :
    Tracks earlier text (Machine.resume ts l) := by
  have hk : (Machine.resume ts l).state.kind = .nothing := by
    unfold Machine.resume State.atLineStart
    split
    · rfl
    · rfl
  have hreverse : (Machine.resume ts l).finished.reverse = ts := List.reverse_reverse ts
  rw [← hreverse] at h
  exact .idle hk h

/-! ## Reading with earlier tokens -/

/-- **The resume point cuts the text, and the tokens kept are laid out up to it.** -/
theorem laidOut_kept (d : Dialect) (earlier : List Token) (text : String) :
    ∃ trailing before after, text.toList = before ++ after ∧
      LaidOut earlier trailing before (resumePoint d text.toList earlier).start
        (kept d earlier text) := by
  unfold kept
  rcases resumePoint_cases d text.toList earlier with hzero |
    ⟨ts, u, vs, hearlier, hpoint, -, -, hlt⟩
  · rw [hzero]
    exact ⟨false, [], text.toList, rfl, .start⟩
  · have hts : ∀ t ∈ ts, t ∈ earlier := fun t ht => by
      rw [hearlier]
      exact List.mem_append_left _ ht
    rw [trusted, hearlier] at hlt
    obtain ⟨trailing, upto, rest, hupto, hsplit⟩ :=
      laidOut_of_trusted none .start hlt hts
    have htake : earlier.take ts.length = ts := by
      rw [hearlier, List.take_left]
    rw [hpoint, htake]
    exact ⟨trailing, upto, rest, hsplit, hupto⟩

/-- **All tokens are laid out in the text**, the ones kept and the ones read. -/
theorem laidOut_retokenize (d : Dialect) (earlier : List Token) (text : String) :
    ∃ trailing l, LaidOut earlier trailing text.toList l (retokenize d earlier text).tokens := by
  obtain ⟨trailing, before, after, htext, hkept⟩ := laidOut_kept d earlier text
  have hrest : splitAtByte? (resumePoint d text.toList earlier).start.offset text.toList =
      some (before, after) := by
    rw [hkept.offset_eq, htext]
    exact splitAtByte?_append ..
  have hsteady := steady_resume (kept d earlier text) (resumePoint d text.toList earlier).start
  have htracks := (tracks_resume hkept).run (d := d) hsteady (newline_notMem_symbols after)
  rw [flatMap_chars_symbols, ← htext] at htracks
  obtain ⟨closed, hlaid⟩ := htracks.laidOut (hsteady.run _)
  have houtput : (retokenize d earlier text).tokens =
      (Machine.run d (Machine.resume (kept d earlier text)
        (resumePoint d text.toList earlier).start) (symbols after)).tokens := by
    unfold retokenize
    simp only [hrest, Option.map_some, Option.getD_some]
    rfl
  rw [houtput]
  exact ⟨closed, _, hlaid⟩

end Lexer

end UnitFile
