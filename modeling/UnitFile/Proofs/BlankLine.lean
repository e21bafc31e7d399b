import UnitFile.Lexer.Tokenize
import UnitFile.Proofs.LineRun
import UnitFile.Proofs.Places
import UnitFile.Proofs.Relocation
import UnitFile.Proofs.SideBySide
/-!
# Blank lines

A blank line ends what the lines above carry on. So the text below it is read as if it
stood alone, only that its places are further down (`blank_line_separates`).

One thing reaches over a blank line. An `=` at the start of a line is an assignment, but
right after an assignment it begins a key. So the text below is read differently if the
last token above is an assignment and the first character below is an `=`, and only then.
-/

namespace UnitFile

open Lexer Text

/-! ## Places behind a part of the text -/

namespace Location

/-- The same place when some complete lines are put in front of the text. -/
def behind (front : List Char) (l : Location) : Location :=
  ⟨l.offset + byteLength front, l.line + front.count '\n', l.column⟩

theorem keepsLines_behind (front : List Char) : KeepsLines (behind front) := by
  intro l cs
  simp [behind, past, Nat.add_right_comm]

theorem nextLine_behind (front : List Char) (l : Location) (width : Nat) :
    (l.behind front).nextLine width = (l.nextLine width).behind front := by
  simp [behind, nextLine, Nat.add_right_comm]

/-- Behind complete lines a text starts where counting through them leads. -/
theorem behind_start (front : List Char) :
    ({} : Location).behind (front ++ ['\n']) = ({} : Location).across (front ++ ['\n']) := by
  have hoffset := across_offset {} (front ++ ['\n'])
  have hline := across_line {} (front ++ ['\n'])
  rw [across_newline] at hoffset hline ⊢
  simp only [behind, nextLine, Location.mk.injEq, and_true] at *
  exact ⟨hoffset.symm, hline.symm⟩

end Location

/-- Tokens and forecast of a text that stands behind `front`, where the tokens `above`
have been found. -/
def Lexer.Output.behind (front : List Char) (above : List Token) (o : Output) : Output :=
  { o with tokens := above ++ o.tokens.map (Token.moved (Location.behind front)) }

/-! ## The first character of a text -/

/-- The character of a symbol that is no line break. -/
def Symbol.char? : Symbol → Option Char
  | .char c => some c
  | .lineBreak _ => none

/-- The first character of a line that is no blank. -/
def Text.lineSign? (line : List Char) : Option Char :=
  line.find? fun c => !isBlank c

/-- The first character of a text that is no blank and belongs to no line break. -/
def Text.firstSign? (text : List Char) : Option Char :=
  lineSign? ((symbols text).filterMap Symbol.char?)

namespace Text

theorem filterMap_char?_map (cs : List Char) :
    (cs.map Symbol.char).filterMap Symbol.char? = cs := by
  rw [List.filterMap_map]
  exact List.filterMap_some

theorem firstSign?_of_notMem {line : List Char} (h : '\n' ∉ line) :
    firstSign? line = lineSign? line := by
  rw [firstSign?, symbols_of_notMem h, filterMap_char?_map]

/-- It is that of the first line, or else that of the lines below. -/
theorem firstSign?_whole_append {ln : Line} (h : ln.Proper) (rest : List Char) :
    firstSign? (ln.whole ++ rest) = (lineSign? ln.chars).or (firstSign? rest) := by
  rw [firstSign?, symbols_whole_append h, List.filterMap_append, filterMap_char?_map, lineSign?,
    List.find?_append]
  rfl

end Text

namespace Grammar

variable {d : Dialect} {carried assigned : Bool} {l : Location} {line : List Char}
variable {r : LineReading}

/-! ## A single line -/

theorem lineSign?_eq_head? (line : List Char) :
    lineSign? line = (line.dropWhile isBlank).head? := by
  unfold lineSign?
  induction line with
  | nil => rfl
  | cons c line ih =>
    cases hc : isBlank c with
    | true => simp [hc, ih]
    | false => simp [hc]

theorem lineSign?_eq_none_iff : lineSign? line = none ↔ AllBlank line := by
  simp [lineSign?, AllBlank]

/-- Only for an `=` it matters whether the last token is an assignment. -/
theorem readLine_assigned (h : lineSign? line ≠ some '=')
    (assigned assigned' : Bool) :
    readLine d carried assigned l line = readLine d carried assigned' l line := by
  rw [lineSign?_eq_head?] at h
  unfold readLine readTaken
  cases hrest : line.dropWhile isBlank with
  | nil => rfl
  | cons c cs =>
    have hc : c ≠ '=' := by simpa [hrest] using h
    simp [hc]

/-- An `=` that no value is carried to begins a key after an assignment, and else it is
one. -/
theorem readLine_equal (h : lineSign? line = some '=') :
    ∃ t ts, (readLine d false assigned l line).tokens = t :: ts ∧
      t.kind = if assigned then .key else .assignment := by
  rw [lineSign?_eq_head?] at h
  obtain ⟨cs, hrest⟩ := List.head?_eq_some_iff.1 h
  have htaken : takesUp d false (line.takeWhile isBlank) = false := rfl
  unfold readLine readTaken
  simp only [hrest, isCommentSign_equal, htaken, Bool.false_eq_true, if_false]
  cases assigned with
  | false => exact ⟨_, _, rfl, rfl⟩
  | true =>
    simp only [Bool.not_true, Bool.and_false, Bool.false_eq_true, Char.reduceEq, if_false, if_true,
      readDirective]
    split <;> exact ⟨_, _, rfl, rfl⟩

/-- A line without tokens is blank. -/
theorem Reads.allBlank (h : Reads d carried assigned l line r) (hr : r.tokens = []) :
    AllBlank line := by
  cases h with
  | blank hi => exact hi
  | _ => simp at hr

namespace Progress

variable {p : Progress} {text front : List Char} {above : List Token}

/-! ## Texts behind others -/

/-- The same progress in a text that stands behind `front`. -/
def behind (front : List Char) (above : List Token) (p : Progress) : Progress :=
  ⟨above ++ p.tokens.map (Token.moved (Location.behind front)), p.carried, p.here.behind front⟩

/-- The tokens above matter only until there are others. -/
theorem endsAssigned_behind (h : p.tokens ≠ []) :
    endsAssigned (p.behind front above).tokens = endsAssigned p.tokens := by
  have hne : p.tokens.map (Token.moved (Location.behind front)) ≠ [] := by simpa using h
  rw [endsAssigned, behind, List.getLast?_append_of_ne_nil _ hne, List.getLast?_map, endsAssigned]
  cases p.tokens.getLast? <;> rfl

/-- **The next line holds the same**, unless it is the first one with a token, begins with
an `=` and comes after an assignment. -/
theorem reading_behind (h : p.tokens = [] → endsAssigned above = true →
      lineSign? line ≠ some '=') :
    (p.behind front above).reading d line =
      (p.reading d line).moved (Location.behind front) := by
  have hmoved := readLine_moved (d := d) (Location.keepsLines_behind front) p.carried
    (endsAssigned p.tokens) p.here line
  refine Eq.trans ?_ hmoved
  show readLine d p.carried (endsAssigned (p.behind front above).tokens) _ line = _
  by_cases hne : p.tokens = []
  · -- no token of the text yet, so the last one is above
    have hnone : endsAssigned p.tokens = false := by rw [hne]; rfl
    have habove : (p.behind front above).tokens = above := by simp [behind, hne]
    rw [hnone, habove]
    cases hassigned : endsAssigned above with
    | false => rfl
    | true => exact readLine_assigned (h hne hassigned) true false
  · rw [endsAssigned_behind hne]
    rfl

/-- **A text behind another one holds the same tokens, moved**, unless it begins with an
`=` after an assignment. -/
theorem read_behind (h : p.tokens = [] → endsAssigned above = true →
      firstSign? text ≠ some '=') :
    (p.behind front above).read d text = (p.read d text).behind front above := by
  induction text using lines_induction generalizing p with
  | last cs hcs =>
    rw [firstSign?_of_notMem hcs] at h
    rw [read_of_notMem d _ hcs, read_of_notMem d _ hcs, finish, reading_behind h]
    simp [finish, output, behind, Output.behind, LineReading.moved]
  | line ln hln rest ih =>
    rw [firstSign?_whole_append hln] at h
    have hline : p.tokens = [] → endsAssigned above = true →
        lineSign? ln.chars ≠ some '=' := by
      intro hnil hassigned heq
      exact h hnil hassigned (by rw [heq]; rfl)
    have hnext : (p.behind front above).next d ln = (p.next d ln).behind front above := by
      rw [next, reading_behind hline]
      have hhere : ((p.here.behind front).past ln.chars).nextLine ln.stop.width =
          ((p.here.past ln.chars).nextLine ln.stop.width).behind front := by
        rw [Location.keepsLines_behind, Location.nextLine_behind]
      simp [next, below, behind, LineReading.moved, hhere]
    rw [read_whole_append d _ hln, read_whole_append d _ hln, hnext]
    refine ih fun hnil hassigned heq => ?_
    -- a line that adds no token is blank, and has no character of its own
    rw [next_tokens, List.append_eq_nil_iff] at hnil
    have hblank : AllBlank ln.chars := (reads_reading d p ln.chars).allBlank hnil.2
    exact h hnil.1 hassigned (by rw [lineSign?_eq_none_iff.2 hblank]; exact heq)

/-- An `=` at the beginning of a line that nothing is carried into. -/
theorem reading_equal (hcarried : p.carried = false) (h : lineSign? line = some '=') :
    ∃ t ts, (p.reading d line).tokens = t :: ts ∧
      t.kind = if endsAssigned p.tokens then .key else .assignment := by
  unfold reading
  rw [hcarried]
  exact readLine_equal h

/-- **What an `=` at the beginning of a text is**: a key after an assignment, and else an
assignment. -/
theorem read_equal (hcarried : p.carried = false) (h : firstSign? text = some '=') :
    ∃ t ts, (p.read d text).tokens = p.tokens ++ t :: ts ∧
      t.kind = if endsAssigned p.tokens then .key else .assignment := by
  induction text using lines_induction generalizing p with
  | last cs hcs =>
    rw [firstSign?_of_notMem hcs] at h
    obtain ⟨t, ts, htokens, hkind⟩ := reading_equal hcarried h
    exact ⟨t, ts, by rw [read_of_notMem d _ hcs, finish, output, htokens], hkind⟩
  | line ln hln rest ih =>
    rw [firstSign?_whole_append hln] at h
    rw [read_whole_append d _ hln]
    cases hfind : lineSign? ln.chars with
    | some c =>
      rw [hfind, Option.some_or] at h
      rw [h] at hfind
      obtain ⟨t, ts, htokens, hkind⟩ := reading_equal hcarried hfind
      obtain ⟨below, hbelow⟩ := exists_read_tokens d (p.next d ln) rest
      exact ⟨t, ts ++ below, by rw [hbelow, next_tokens, htokens]; simp, hkind⟩
    | none =>
      have hblank : AllBlank ln.chars := lineSign?_eq_none_iff.1 hfind
      rw [hfind, Option.none_or] at h
      have htokens : (p.next d ln).tokens = p.tokens := by
        rw [next_tokens, reading, (readLine_blank hblank).1, List.append_nil]
      have hidle : (p.next d ln).carried = false := (readLine_blank hblank).2
      obtain ⟨t, ts, hread, hkind⟩ := ih hidle h
      rw [htokens] at hread hkind
      exact ⟨t, ts, hread, hkind⟩

/-- **When a text behind another one holds its own tokens**: exactly when it does not begin
with an `=` after an assignment. -/
theorem read_behind_iff :
    (({} : Progress).behind front above).read d text =
        (Progress.read d {} text).behind front above ↔
      ¬ (endsAssigned above = true ∧ firstSign? text = some '=') := by
  constructor
  · rintro hread ⟨hassigned, hequal⟩
    -- the first token of the text would be a key and an assignment at once
    obtain ⟨t, ts, halone, hassignment⟩ := read_equal (d := d) (p := {}) rfl hequal
    obtain ⟨u, us, hbehind, hkey⟩ :=
      read_equal (d := d) (p := ({} : Progress).behind front above) rfl hequal
    have habove : (({} : Progress).behind front above).tokens = above := List.append_nil above
    rw [habove] at hbehind hkey
    have htokens := congrArg Output.tokens hread
    rw [hbehind, Output.behind, halone] at htokens
    have hmoved := (List.cons.inj (List.append_cancel_left htokens)).1
    rw [hmoved, Token.moved_kind, hassignment, hassigned] at hkey
    exact absurd hkey (by decide)
  · intro h
    exact read_behind fun _ hassigned hequal => h ⟨hassigned, hequal⟩

/-- A line that a `\n` ends. -/
theorem read_newline (d : Dialect) (p : Progress) (hline : '\n' ∉ line)
    (hlast : line.getLast? ≠ some '\r') (rest : List Char) :
    p.read d (line ++ '\n' :: rest) = (p.next d ⟨line, .lf⟩).read d rest := by
  have hwhole : line ++ '\n' :: rest = (⟨line, .lf⟩ : Line).whole ++ rest := by
    simp [Line.whole, LineBreak.chars]
  rw [hwhole, read_whole_append d p ⟨hline, fun _ => hlast⟩]

/-- A text that a `\n` ends is read on from the start of the line below. -/
theorem read_break (d : Dialect) (p : Progress) (h : text.getLast? ≠ some '\r') :
    ∃ q : Progress, q.tokens = (p.read d text).tokens ∧ q.here = p.here.across (text ++ ['\n']) ∧
      ∀ rest, p.read d (text ++ '\n' :: rest) = q.read d rest := by
  induction text using lines_induction generalizing p with
  | last cs hcs =>
    refine ⟨p.next d ⟨cs, .lf⟩, ?_, ?_, read_newline d p hcs h⟩
    · rw [read_of_notMem d p hcs]
      rfl
    · rw [Location.across_newline, Location.across_of_notMem hcs]
      rfl
  | line ln hln below ih =>
    have hlast : below.getLast? ≠ some '\r' := by
      rintro hr
      exact h (by rw [List.getLast?_append, hr, Option.some_or])
    obtain ⟨q, htokens, hhere, hread⟩ := ih (p.next d ln) hlast
    refine ⟨q, ?_, ?_, fun rest => ?_⟩
    · rw [htokens, read_whole_append d p hln]
    · rw [hhere, next_here, ← Location.across_whole hln, ← Location.across_append,
        List.append_assoc]
    · rw [List.append_assoc, read_whole_append d p hln, hread]

/-- **Below a blank line a text is read on with nothing carried into it.** -/
theorem read_blank_line (d : Dialect) (p : Progress) {blank : List Char}
    (h : text.getLast? ≠ some '\r') (hblank : AllBlank blank) (rest : List Char) :
    p.read d (text ++ '\n' :: (blank ++ '\n' :: rest)) =
      (⟨(p.read d text).tokens, false,
        p.here.across (text ++ '\n' :: (blank ++ ['\n']))⟩ : Progress).read d rest := by
  have hnewline : '\n' ∉ blank := fun hmem => absurd (hblank _ hmem) (by decide)
  have hlast : blank.getLast? ≠ some '\r' :=
    fun hr => absurd (hblank _ (List.mem_of_getLast? hr)) (by decide)
  obtain ⟨q, htokens, hhere, hread⟩ := read_break d p h
  have hplace : p.here.across (text ++ '\n' :: (blank ++ ['\n'])) =
      (q.here.past blank).nextLine 1 := by
    have happend : text ++ '\n' :: (blank ++ ['\n']) = text ++ ['\n'] ++ blank ++ ['\n'] := by
      simp
    rw [happend, Location.across_newline, Location.across_append,
      Location.across_of_notMem hnewline, hhere]
  have hnext : q.next d ⟨blank, .lf⟩ = ⟨q.tokens, false, (q.here.past blank).nextLine 1⟩ := by
    unfold next reading below
    simp only [readLine_blank hblank, List.append_nil]
    rfl
  rw [hread, read_newline d q hnewline hlast, hplace, ← htokens, hnext]

end Progress

end Grammar

/-! ## Whole texts -/

section

open Grammar

variable {d : Dialect} {p b : String}

/-- Below a blank line a text is read as behind all that stands above. -/
theorem tokenize_blank_line (hp : p.toList.getLast? ≠ some '\r') (hb : AllBlank b.toList)
    (q : String) :
    tokenize d (p ++ "\n" ++ b ++ "\n" ++ q) =
      (({} : Progress).behind (p ++ "\n" ++ b ++ "\n").toList (tokenize d p).tokens).read d
        q.toList := by
  have htext : (p ++ "\n" ++ b ++ "\n" ++ q).toList =
      p.toList ++ '\n' :: (b.toList ++ '\n' :: q.toList) := by simp
  have hfront : (p ++ "\n" ++ b ++ "\n").toList = p.toList ++ '\n' :: (b.toList ++ ['\n']) := by
    simp
  have hconcat : p.toList ++ '\n' :: (b.toList ++ ['\n']) =
      p.toList ++ '\n' :: b.toList ++ ['\n'] := by simp
  have hstart : ({} : Progress).behind (p ++ "\n" ++ b ++ "\n").toList (tokenize d p).tokens =
      ⟨(Progress.read d {} p.toList).tokens, false,
        ({} : Location).across (p.toList ++ '\n' :: (b.toList ++ ['\n']))⟩ := by
    rw [hfront, hconcat, ← Location.behind_start, ← Machine.output_start]
    simp [Progress.behind, tokenize]
  rw [hstart, tokenize, Machine.output_start, htext]
  exact Progress.read_blank_line d {} hp hb q.toList

/-- **A blank line separates.** The tokens above it are those of the text above alone, and
below it come those of the text below, as many bytes and lines further down as stand above;
the forecast is that of the text below. This holds unless the last token above is an
assignment and the first character below is an `=`, and then it never does. -/
theorem blank_line_separates (d : Dialect) (p b q : String) (hp : p.toList.getLast? ≠ some '\r')
    (hb : AllBlank b.toList) :
    tokenize d (p ++ "\n" ++ b ++ "\n" ++ q) =
        (tokenize d q).behind (p ++ "\n" ++ b ++ "\n").toList (tokenize d p).tokens ↔
      ¬ (endsAssigned (tokenize d p).tokens = true ∧ firstSign? q.toList = some '=') := by
  have halone : tokenize d q = Progress.read d {} q.toList := Machine.output_start d q.toList
  rw [tokenize_blank_line hp hb, halone]
  exact Progress.read_behind_iff

/-- An escaped break is not carried over a blank line, so the line below holds an assignment
of its own. Below a bare assignment it does not. -/
theorem blank_line_separates_equal :
    tokenize .systemd ("A=1\\" ++ "\n" ++ " \t" ++ "\n" ++ " =2") =
      (tokenize .systemd " =2").behind ("A=1\\" ++ "\n" ++ " \t" ++ "\n").toList
        (tokenize .systemd "A=1\\").tokens ∧
    tokenize .mkosi ("A=" ++ "\n" ++ "" ++ "\n" ++ "\r\n =2") ≠
      (tokenize .mkosi "\r\n =2").behind ("A=" ++ "\n" ++ "" ++ "\n").toList
        (tokenize .mkosi "A=").tokens := by
  have hescaped := blank_line_separates .systemd "A=1\\" " \t" " =2" (by decide)
    (List.all_eq_true.1 (by decide))
  have hbare := blank_line_separates .mkosi "A=" "" "\r\n =2" (by decide)
    (List.all_eq_true.1 (by decide))
  refine ⟨hescaped.2 (by decide +kernel), fun heq => hbare.1 heq (by decide +kernel)⟩

end

end UnitFile
