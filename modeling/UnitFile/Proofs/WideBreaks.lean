import UnitFile.Folding
import UnitFile.Proofs.LineRun
import UnitFile.Proofs.Relocation
/-!
# Texts with wide line breaks

A text can be written with `\r\n` in place of `\n` (`withCrlf`). Then each line starts as
many bytes later as there are lines above it, and nothing else about a place changes
(`Location.widened`). The line grammar looks at no place, so a widened place leads it to
the same tokens in widened places (`readLine_widened`), line after line
(`Progress.read_widened`), and the lexer with it (`tokenize_withCrlf`).

Whatever looks only at kinds, texts, lines and columns cannot tell the two texts apart:
directives keep their header, key and value, and folds stay as they are.
-/

namespace UnitFile

open Lexer Text

/-! ## Places in a text with wide breaks -/

namespace Location

/-- The same place when every break above it takes one more byte. -/
def widened (l : Location) : Location :=
  { l with offset := l.offset + l.line }

@[simp] theorem past_widened (l : Location) (cs : List Char) :
    l.widened.past cs = (l.past cs).widened := by
  simp [widened, past, Nat.add_right_comm]

theorem keepsLines_widened : KeepsLines widened :=
  past_widened

/-- A wide break leads from a widened place to the widened start of the next line. -/
theorem nextLine_widened (l : Location) :
    l.widened.nextLine LineBreak.crlf.width = (l.nextLine LineBreak.lf.width).widened := by
  simp only [widened, nextLine, LineBreak.width, Location.mk.injEq, and_true]
  omega

end Location

/-- The same range when every break above its ends takes one more byte. -/
def Range.widened (r : Range) : Range :=
  ⟨r.start.widened, r.stop.widened⟩

/-- The same token when every break above it takes one more byte: its kind, its text, its
lines and its columns stay. -/
def Token.widened (t : Token) : Token :=
  { t with range := t.range.widened }

@[simp] theorem Token.widened_kind (t : Token) : t.widened.kind = t.kind := rfl

@[simp] theorem Token.widened_text (t : Token) : t.widened.text = t.text := rfl

/-- The same tokens in a text with wide breaks. -/
def Lexer.Output.widened (o : Output) : Output :=
  { o with tokens := o.tokens.map Token.widened }

/-- Every `\n` written as `\r\n`. -/
def Text.widenBreaks (cs : List Char) : List Char :=
  cs.flatMap fun c => if c = '\n' then ['\r', '\n'] else [c]

/-- A text with every `\n` written as `\r\n`. -/
def withCrlf (text : String) : String :=
  String.ofList (widenBreaks text.toList)

namespace Text

theorem widenBreaks_of_notMem {cs : List Char} (h : '\n' ∉ cs) : widenBreaks cs = cs := by
  induction cs with
  | nil => rfl
  | cons c cs ih =>
    simp only [List.mem_cons, not_or] at h
    have hcs : widenBreaks cs = cs := ih h.2
    rw [widenBreaks] at hcs
    simp [widenBreaks, Ne.symm h.1, hcs]

/-- The first line gets its wide break, and then the rest. -/
theorem widenBreaks_line {line : List Char} (h : '\n' ∉ line) (rest : List Char) :
    widenBreaks ((⟨line, .lf⟩ : Line).whole ++ rest) =
      (⟨line, .crlf⟩ : Line).whole ++ widenBreaks rest := by
  have hline := widenBreaks_of_notMem h
  rw [widenBreaks] at hline
  simp [widenBreaks, Line.whole, LineBreak.chars, hline]

end Text

/-! ## The line grammar reads no offset -/

namespace Grammar

variable {d : Dialect}

/-- What a line holds, in a text with wide breaks. -/
def LineReading.widened (r : LineReading) : LineReading :=
  { r with tokens := r.tokens.map Token.widened }

/-- **A line at a widened place holds the same tokens, widened.** -/
theorem readLine_widened (carried assigned : Bool) (l : Location) (line : List Char) :
    readLine d carried assigned l.widened line = (readLine d carried assigned l line).widened :=
  readLine_moved Location.keepsLines_widened carried assigned l line

namespace Progress

/-- The same progress in a text with wide breaks. -/
def widened (p : Progress) : Progress :=
  { p with tokens := p.tokens.map Token.widened, here := p.here.widened }

theorem reading_widened (p : Progress) (line : List Char) :
    p.widened.reading d line = (p.reading d line).widened := by
  have hlast : endsAssigned (p.tokens.map Token.widened) = endsAssigned p.tokens := by
    rw [endsAssigned, endsAssigned, List.getLast?_map]
    cases p.tokens.getLast? <;> rfl
  simp only [reading, widened, hlast, readLine_widened]

/-- A line with a wide break is read as the line with a narrow one. -/
theorem next_widened (p : Progress) (line : List Char) :
    p.widened.next d ⟨line, .crlf⟩ = (p.next d ⟨line, .lf⟩).widened := by
  simp only [next, reading_widened]
  simp only [below, widened, LineReading.widened, List.map_append, Location.past_widened,
    Location.nextLine_widened]

theorem finish_widened (p : Progress) (line : List Char) :
    p.widened.finish d line = (p.finish d line).widened := by
  simp only [finish, reading_widened]
  simp only [output, widened, LineReading.widened, Output.widened, List.map_append]

/-- **And so is the whole text**, if all its breaks are narrow. -/
theorem read_widened (p : Progress) {text : List Char} (h : '\r' ∉ text) :
    p.widened.read d (widenBreaks text) = (p.read d text).widened := by
  induction text using lines_induction generalizing p with
  | last cs hcs => rw [widenBreaks_of_notMem hcs, read_of_notMem d _ hcs, read_of_notMem d _ hcs,
      finish_widened]
  | line ln hln rest ih =>
    obtain ⟨line, stop⟩ := ln
    -- a break that is wide already has a `\r`
    cases stop with
    | crlf => simp [Line.whole, LineBreak.chars] at h
    | lf =>
      simp only [List.mem_append, not_or] at h
      have hwide : (⟨line, .crlf⟩ : Line).Proper := ⟨hln.1, by simp⟩
      rw [widenBreaks_line hln.1, read_whole_append d _ hwide, read_whole_append d _ hln,
        next_widened, ih _ h.2]

end Progress

end Grammar

/-- **A text with wide breaks has the tokens of the text with narrow ones, widened.** -/
theorem tokenize_withCrlf (d : Dialect) {text : String} (h : '\r' ∉ text.toList) :
    tokenize d (withCrlf text) = (tokenize d text).widened := by
  have hread := Grammar.Progress.read_widened (d := d) {} h
  rw [← Machine.output_start] at hread
  rw [tokenize, withCrlf, String.toList_ofList, Machine.output_start]
  exact hread

/-! ## What is read off the tokens -/

/-- The same directive in a text with wide breaks. -/
def Directive.widened (v : Directive) : Directive :=
  { v with keyRange := v.keyRange.widened, valueRanges := v.valueRanges.map Range.widened }

theorem valueTokens_map_widened (tokens : List Token) :
    valueTokens (tokens.map Token.widened) = (valueTokens tokens).map Token.widened := by
  rw [valueTokens, List.takeWhile_map, List.filter_map]
  rfl

theorem directiveOf_widened (header : Option String) (key : Token) (rest : List Token) :
    directiveOf header key.widened (rest.map Token.widened) =
      (directiveOf header key rest).widened := by
  cases rest with
  | nil => rfl
  | cons t rest =>
    simp only [directiveOf, List.map_cons, valueTokens_map_widened, List.map_map,
      Token.widened_kind]
    split
    · simp only [Directive.widened, List.map_map]
      rfl
    · rfl

theorem directivesUnder_widened (header : Option String) (tokens : List Token) :
    directivesUnder header (tokens.map Token.widened) =
      (directivesUnder header tokens).map Directive.widened := by
  fun_induction directivesUnder header tokens with
  | case1 => rfl
  | case2 header t ts hk ih => simpa [directivesUnder, hk] using ih
  | case3 header t ts hk ih => simpa [directivesUnder, hk, directiveOf_widened] using ih
  | case4 header t ts hk hk' ih => simpa [directivesUnder] using ih

/-- **Directives stand where they stood, widened.** -/
theorem directives_widened (tokens : List Token) (withIncomplete : Bool) :
    directives (tokens.map Token.widened) withIncomplete =
      (directives tokens withIncomplete).map Directive.widened := by
  rw [directives, directivesUnder_widened, List.filter_map]
  rfl

theorem valueFold?_widened (line : Nat) (tokens : List Token) :
    valueFold? line (tokens.map Token.widened) = valueFold? line tokens := by
  have hbody : valueBody (tokens.map Token.widened) = (valueBody tokens).map Token.widened := by
    rw [valueBody, List.takeWhile_map, ← List.map_reverse, List.dropWhile_map, ← List.map_reverse]
    rfl
  simp only [valueFold?, hbody, List.any_map, List.getLast?_map, Option.map_map]
  rfl

theorem valueFolds_widened (tokens : List Token) :
    valueFolds (tokens.map Token.widened) = valueFolds tokens := by
  induction tokens with
  | nil => rfl
  | cons t ts ih =>
    simp only [List.map_cons, valueFolds, valueFold?_widened, ih]
    rfl

theorem sectionFold_widened (header : Token) (tokens : List Token) :
    sectionFold header.widened (tokens.map Token.widened) = sectionFold header tokens := by
  simp only [sectionFold, List.takeWhile_map, List.filter_map, List.getLast?_map,
    Option.getD_map]
  rfl

theorem sectionFolds_widened (tokens : List Token) :
    sectionFolds (tokens.map Token.widened) = sectionFolds tokens := by
  induction tokens with
  | nil => rfl
  | cons t ts ih =>
    simp only [List.map_cons, sectionFolds, sectionFold_widened, ih]
    rfl

theorem commentScan_widened (mark : List Char → Marker) (options : FoldOptions)
    (tokens : List Token) :
    CommentScan.ofTokens mark options (tokens.map Token.widened) =
      CommentScan.ofTokens mark options tokens := by
  rw [CommentScan.ofTokens, List.foldl_map]
  rfl

/-- **Folds stay as they are**: all families look at kinds, texts, lines and columns
only. -/
theorem folding_widened (mark : List Char → Marker) (options : FoldOptions)
    (tokens : List Token) :
    folding mark options (tokens.map Token.widened) = folding mark options tokens := by
  simp only [folding, foldCandidates, commentScan_widened, valueFolds_widened,
    sectionFolds_widened]

/-! ## The two texts -/

/-- **Narrow and wide line breaks are read alike.** A text without a `\r` has the same
tokens when every `\n` is written as `\r\n`, in places whose offsets are larger by their
line numbers, and the same forecast. So its directives have the same headers, keys and
values, and its folds are the same for all options. -/
theorem breaks_read_alike (d : Dialect) (text : String) (h : '\r' ∉ text.toList) :
    (tokenize d (withCrlf text)).tokens = (tokenize d text).tokens.map Token.widened ∧
    (tokenize d (withCrlf text)).forecast = (tokenize d text).forecast ∧
    (∀ withIncomplete,
      (directives (tokenize d (withCrlf text)).tokens withIncomplete).map
          (fun v => (v.header, v.key, v.value)) =
        (directives (tokenize d text).tokens withIncomplete).map
          (fun v => (v.header, v.key, v.value))) ∧
    ∀ mark options, folding mark options (tokenize d (withCrlf text)).tokens =
      folding mark options (tokenize d text).tokens := by
  have htokens : (tokenize d (withCrlf text)).tokens =
      (tokenize d text).tokens.map Token.widened := by
    rw [tokenize_withCrlf d h]
    rfl
  refine ⟨htokens, ?_, fun withIncomplete => ?_, fun mark options => ?_⟩
  · rw [tokenize_withCrlf d h]
    rfl
  · rw [htokens, directives_widened, List.map_map]
    rfl
  · rw [htokens, folding_widened]

/-- A value that an escaped break carries on: its second line starts one byte later, and
the value folds as before. -/
theorem breaks_read_alike_continued :
    (tokenize .systemd "K=a\\\r\nb").tokens.getLast? =
      some ⟨.value, ⟨⟨6, 1, 0⟩, ⟨7, 1, 1⟩⟩, "b"⟩ ∧
    folding Marker.ofComment {} (tokenize .systemd "K=a\\\r\nb").tokens =
      folding Marker.ofComment {} (tokenize .systemd "K=a\\\nb").tokens := by
  have hwide : withCrlf "K=a\\\nb" = "K=a\\\r\nb" := by decide
  have hlast : (tokenize .systemd "K=a\\\nb").tokens.getLast? =
      some ⟨.value, ⟨⟨5, 1, 0⟩, ⟨6, 1, 1⟩⟩, "b"⟩ := by decide +kernel
  obtain ⟨htokens, -, -, hfolding⟩ := breaks_read_alike .systemd "K=a\\\nb" (by decide)
  rw [hwide] at htokens hfolding
  refine ⟨?_, hfolding Marker.ofComment {}⟩
  rw [htokens, List.getLast?_map, hlast]
  rfl

end UnitFile
