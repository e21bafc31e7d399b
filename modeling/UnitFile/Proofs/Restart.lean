import UnitFile.Proofs.Growth
import UnitFile.Proofs.Places
import UnitFile.Proofs.Reuse
/-!
# Restarting at a line

A text that has been read up to the start of a line can be taken up there with nothing but
the tokens found so far. The state is made anew from the last of them
(`State.atLineStart`), and so it has lost what the break before carries into the line. A
value carried over an escaped break shows in the forecast. One that only an indented line
would take up does not, so in a mkosi file the line must not be indented. Nothing else is
lost (`readOn_line_start`).

Both machines are at the start of a line (`LineStart`), the one that has read all of the
text (`lineStart_run`) and the one that is made anew (`lineStart_resume`). From there a
text is read by the line grammar, which sees of a machine only its tokens, its place and
what is carried.
-/

namespace UnitFile

open Lexer Text Grammar

variable {d : Dialect}

namespace Lexer

namespace Machine

variable {m : Machine} {carried : Bool}

/-- Whole lines lead from the start of a line to the start of a line. -/
theorem lineStart_run {text : List Char} (htext : text = [] ∨ text.getLast? = some '\n')
    (h : LineStart d carried m) :
    ∃ carried', LineStart d carried' (m.run d (symbols text)) ∧
      (m.run d (symbols text)).here = m.here.across text := by
  induction text using lines_induction generalizing m carried with
  | last cs hcs =>
    obtain rfl : cs = [] :=
      htext.resolve_right fun hlast => hcs (List.mem_of_getLast? hlast)
    exact ⟨carried, h, rfl⟩
  | line ln hln rest ih =>
    have hrest : rest = [] ∨ rest.getLast? = some '\n' := by
      by_cases hne : rest = []
      · exact Or.inl hne
      · rw [List.getLast?_append_of_ne_nil _ hne] at htext
        exact Or.inr (htext.resolve_left (by simp [hne]))
    obtain ⟨hstart, -, hhere⟩ := h.next ln
    obtain ⟨carried', hrun, hend⟩ := ih hrest hstart
    rw [hhere, ← Location.across_whole hln, ← Location.across_append] at hend
    rw [symbols_whole_append hln, run_append, run_cons]
    exact ⟨carried', hrun, hend⟩

/-- At the start of a line nothing is under way. -/
theorem LineStart.tokens_eq (h : LineStart d carried m) : m.tokens = m.finished.reverse :=
  tokens_hidden (by rw [h.kind]; rfl)

/-- Where nothing is forecast there, nothing is carried over an escaped break. -/
theorem LineStart.carried_eq_false (h : LineStart d carried m) (hf : m.forecast = .nothing)
    (hd : d.hasEscapes = true) : carried = false := by
  by_contra hne
  have hcont : m.state.continueAs = some .value := by
    rw [h.continueAs]
    simp [hd, hne]
  simp [forecast, h.kind, hcont] at hf

/-- **The state at the start of a line can be made anew from the tokens.** -/
theorem LineStart.output_resume_tokens {text : List Char} (h : LineStart d carried m)
    (hf : m.forecast = .nothing)
    (htext : d.hasEscapes = false → ∀ c ∈ text.head?, isBlank c = false) :
    ((resume m.tokens m.here).run d (symbols text)).output = (m.run d (symbols text)).output := by
  have habove : ∀ t ∈ m.tokens.getLast?, t.range.stop.line < m.here.line := by
    rw [h.tokens_eq, List.getLast?_reverse]
    exact h.above
  rw [output_resume text habove, output_run text h, h.tokens_eq]
  exact (read_uncarried (p := ⟨m.finished.reverse, carried, m.here⟩) (h.carried_eq_false hf)
    htext).symm

theorem lineStart_start (d : Dialect) : LineStart d false {} :=
  lineStart_resume (by simp : ∀ t ∈ ([] : List Token).getLast?, _)

end Machine

/-- Reads a text on from a place in it, with the tokens before that place at hand. -/
def readOn (d : Dialect) (tokens : List Token) (l : Location) (text : String) : Output :=
  let rest := ((splitAtByte? l.offset text.toList).map Prod.snd).getD []
  (Machine.run d (Machine.resume tokens l) (symbols rest)).output

/-- An edited text is read on from its resume point. -/
theorem retokenize_eq_readOn (d : Dialect) (earlier : List Token) (text : String) :
    retokenize d earlier text =
      readOn d (kept d earlier text) (resumePoint d text.toList earlier).start text := rfl

/-- Behind a first part of a text, the second part is read. -/
theorem readOn_append (d : Dialect) (tokens : List Token) {l : Location} {p : String}
    (hl : l.offset = byteLength p.toList) (q : String) :
    readOn d tokens l (p ++ q) =
      (Machine.run d (Machine.resume tokens l) (symbols q.toList)).output := by
  unfold readOn
  rw [hl, String.toList_append, splitAtByte?_append]
  rfl

end Lexer

/-! ## Whole texts -/

/-- **A text can be taken up at the start of a line with the tokens before it alone**, if
nothing is forecast there and, in a mkosi file, the line is not indented. -/
theorem readOn_line_start (d : Dialect) (p q : String)
    (hp : p = "" ∨ p.toList.getLast? = some '\n')
    (hforecast : (tokenize d p).forecast = .nothing)
    (hq : d = .mkosi → ∀ c ∈ q.toList.head?, isBlank c = false) :
    ∃ l, (LineIndex.ofChars p.toList).locate (byteLength p.toList) = .ok l ∧
      readOn d (tokenize d p).tokens l (p ++ q) = tokenize d (p ++ q) := by
  have hlines : p.toList = [] ∨ p.toList.getLast? = some '\n' := by
    simpa using hp
  obtain ⟨carried, hstart, hhere⟩ := Machine.lineStart_run hlines (Machine.lineStart_start d)
  have hlocate := LineIndex.locate_append p.toList []
  have hoffset : (({} : Location).across p.toList).offset = byteLength p.toList := by
    rw [Location.across_offset, Nat.zero_add]
  have hcut : ¬ SplitsBreak p.toList q.toList := by
    rintro ⟨hr, -⟩
    rcases hlines with hnil | hlast
    · simp [hnil] at hr
    · simp [hlast] at hr
  have hindent : d.hasEscapes = false → ∀ c ∈ q.toList.head?, isBlank c = false := by
    intro hd
    exact hq (by cases d <;> simp_all [Dialect.hasEscapes])
  rw [List.append_nil] at hlocate
  refine ⟨_, hlocate, ?_⟩
  rw [readOn_append d _ hoffset q, tokens_tokenize, ← hhere,
    hstart.output_resume_tokens hforecast hindent, tokenize, String.toList_append,
    run_append_text d hcut]

/-- Below a bare assignment an `=` begins a key, which is known from the last token. -/
theorem readOn_line_start_equal :
    ∃ l, (LineIndex.ofChars "K=\r\n".toList).locate 4 = .ok l ∧
      readOn .mkosi (tokenize .mkosi "K=\r\n").tokens l ("K=\r\n" ++ "=a\n b") =
        tokenize .mkosi ("K=\r\n" ++ "=a\n b") :=
  readOn_line_start .mkosi "K=\r\n" "=a\n b" (by decide) (by decide +kernel) (by simp [isBlank])

/-- A value carried over an escaped break is lost, and so is one that an indented line would
take up. -/
example :
    readOn .systemd (tokenize .systemd "K=a\\\n").tokens ⟨5, 1, 0⟩ "K=a\\\nb" ≠
        tokenize .systemd "K=a\\\nb" ∧
      readOn .mkosi (tokenize .mkosi "K=a\n").tokens ⟨4, 1, 0⟩ "K=a\n b" ≠
        tokenize .mkosi "K=a\n b" := by
  decide +kernel

end UnitFile
