import UnitFile.Dialect
import UnitFile.Lexer.Machine
import UnitFile.Proofs.Lines
/-!
# The line grammar

A unit file can be read line by line. What a line holds is decided by its first
character that is not blank, by whether it takes up the value of the line above,
and by whether the last token so far is an assignment (`readTaken`). A line of a
mkosi file takes up the value carried into it if it is indented, and the blanks of
its indent are counted in a word (`isIndent`, `takesUp`). Over a whole text only
what is carried, the tokens and the place go from line to line (`Progress`).

`Reads` is the same grammar as a relation: one rule for each form of a line, with
the gaps between its tokens spelled out. `reads_readLine` and `Reads.eq_readLine`
say that function and relation are the same thing.
-/

namespace UnitFile

open Lexer Text

/-- Whether the last of some tokens is an assignment. -/
def endsAssigned (ts : List Token) : Bool :=
  ts.getLast?.any (·.kind == .assignment)

namespace Grammar

/-! ## Reading a line -/

/-- What a line holds. -/
structure LineReading where
  tokens : List Token
  /-- Whether the line below can carry on the value of this one. -/
  carriesOn : Bool
  /-- The kind of token that one more character would belong to. -/
  forecast : Kind
deriving DecidableEq

/-- The token that some characters of a line make. -/
def tokenOf (kind : Kind) (l : Location) (cs : List Char) : Token :=
  ⟨kind, ⟨l, l.past cs⟩, String.ofList cs⟩

/-- The number of blanks at which the count of an indent wraps around. -/
def indentWrap : Nat :=
  UInt32.size - 1

/-- Whether a number of blanks is counted as an indent: there are some, and fewer
than wrap the count around. -/
def isIndent (blanks : Nat) : Bool :=
  0 < blanks && blanks < indentWrap

/-- Whether a line takes up the value carried into it: in a systemd file always,
in a mkosi file only an indented one does. -/
def takesUp (d : Dialect) (carried : Bool) (indent : List Char) : Bool :=
  carried && (d.hasEscapes || isIndent indent.length)

/-- Whether a line of keys and values can be carried on: in a systemd file after a
backslash at its very end, in a mkosi file once it has a value or an
assignment. -/
def runsOn (d : Dialect) (valued : Bool) (line : List Char) : Bool :=
  if d.hasEscapes then line.getLast? == some '\\' else valued

/-- The value in what follows an assignment, if there is more than blanks. -/
def assignedValue (l : Location) (cs : List Char) : List Token :=
  let text := (cs.dropWhile isBlank).rdropWhile isBlank
  if text.isEmpty then [] else [tokenOf .value (l.past (cs.takeWhile isBlank)) text]

/-- An assignment and the value in what follows it. -/
def assignmentTokens (l : Location) (cs : List Char) : List Token :=
  tokenOf .assignment l ['='] :: assignedValue (l.past ['=']) cs

/-- A section header, given what follows its `[`: it goes up to the first `]`, and
what trails that is discarded. -/
def readHeader (l : Location) (cs : List Char) : LineReading :=
  if ']' ∈ cs then
    ⟨[tokenOf .header l ('[' :: (cs.takeWhile (· != ']') ++ [']']))], false, .discarded⟩
  else
    ⟨[tokenOf .header l (('[' :: cs).rdropWhile isBlank)], false, .header⟩

/-- A key from its first character on, with the assignment and the value that may
follow it. -/
def readDirective (d : Dialect) (l : Location) (line : List Char) (c : Char) (cs : List Char) :
    LineReading :=
  let name := c :: cs.takeWhile (· != '=')
  let key := tokenOf .key l (name.rdropWhile isBlank)
  match cs.dropWhile (· != '=') with
  | [] => ⟨[key], runsOn d false line, .key⟩
  | _ :: value => ⟨key :: assignmentTokens (l.past name) value, runsOn d true line, .value⟩

/-- What a line holds. The flags say that it takes up the value carried into it, and
that the last token before it is an assignment. -/
def readTaken (d : Dialect) (taken assigned : Bool) (l : Location) (line : List Char) :
    LineReading :=
  let start := l.past (line.takeWhile isBlank)
  match line.dropWhile isBlank with
  | [] => ⟨[], false, if taken then .value else .nothing⟩
  | c :: cs =>
    if d.isCommentSign c then
      ⟨[tokenOf .comment start (c :: cs)], taken, .comment⟩
    else if taken then
      ⟨[tokenOf .value start ((c :: cs).rdropWhile isBlank)], runsOn d true line, .value⟩
    else if c = '=' && !assigned then
      ⟨assignmentTokens start cs, runsOn d true line, .value⟩
    else if c = '[' then
      readHeader start cs
    else
      readDirective d start line c cs

/-- **What a line holds**, given whether a value is carried into it. -/
def readLine (d : Dialect) (carried assigned : Bool) (l : Location) (line : List Char) :
    LineReading :=
  readTaken d (takesUp d carried (line.takeWhile isBlank)) assigned l line

/-! ## Reading a text -/

/-- How far a text has been read, at the start of a line. -/
structure Progress where
  tokens : List Token := []
  /-- Whether a value is carried into the line. -/
  carried : Bool := false
  here : Location := {}
deriving DecidableEq

namespace Progress

/-- Goes on to the line below a line that holds what `r` says. -/
def below (p : Progress) (ln : Line) (r : LineReading) : Progress :=
  ⟨p.tokens ++ r.tokens, r.carriesOn, (p.here.past ln.chars).nextLine ln.stop.width⟩

/-- What has been found when the text ends with a line that holds what `r` says. -/
def output (p : Progress) (r : LineReading) : Output :=
  ⟨p.tokens ++ r.tokens, r.forecast⟩

/-- Reads the rest of a text line by line, with a given way to read a line. -/
def readBy (reading : Progress → List Char → LineReading) (p : Progress) (text : List Char) :
    Output :=
  let q := (cutLines text).1.foldl (fun q ln => q.below ln (reading q ln.chars)) p
  q.output (reading q (cutLines text).2)

/-- What the next line holds. -/
def reading (d : Dialect) (p : Progress) (line : List Char) : LineReading :=
  readLine d p.carried (endsAssigned p.tokens) p.here line

/-- Goes on to the line below. -/
def next (d : Dialect) (p : Progress) (ln : Line) : Progress :=
  p.below ln (p.reading d ln.chars)

/-- What has been found when the text ends with this line. -/
def finish (d : Dialect) (p : Progress) (line : List Char) : Output :=
  p.output (p.reading d line)

/-- Reads the rest of a text line by line. -/
def read (d : Dialect) (p : Progress) (text : List Char) : Output :=
  p.readBy (reading d) text

section readBy

variable (reading : Progress → List Char → LineReading) (p : Progress)

theorem readBy_of_notMem {cs : List Char} (h : '\n' ∉ cs) :
    p.readBy reading cs = p.output (reading p cs) := by
  rw [readBy, cutLines_of_notMem h]
  rfl

theorem readBy_whole_append {ln : Line} (h : ln.Proper) (rest : List Char) :
    p.readBy reading (ln.whole ++ rest) =
      (p.below ln (reading p ln.chars)).readBy reading rest := by
  rw [readBy, cutLines_whole_append h]
  rfl

end readBy

theorem read_of_notMem (d : Dialect) (p : Progress) {cs : List Char} (h : '\n' ∉ cs) :
    p.read d cs = p.finish d cs :=
  readBy_of_notMem _ p h

theorem read_whole_append (d : Dialect) (p : Progress) {ln : Line} (h : ln.Proper)
    (rest : List Char) : p.read d (ln.whole ++ rest) = (p.next d ln).read d rest :=
  readBy_whole_append _ p h rest

end Progress

/-- **A text read by the line grammar.** -/
def readText (d : Dialect) (text : String) : Output :=
  Progress.read d {} text.toList

/-! ## The forms of a line -/

/-- A run of blanks. -/
def AllBlank (cs : List Char) : Prop :=
  ∀ c ∈ cs, isBlank c = true

/-- Characters with no blank at either end. -/
structure Solid (cs : List Char) : Prop where
  head : ∀ c ∈ cs.head?, isBlank c = false
  last : ∀ c ∈ cs.getLast?, isBlank c = false
  ne_nil : cs ≠ []

/-- What may follow an assignment on its line. -/
inductive ReadsValue (l : Location) : List Char → List Token → Prop
  | none {cs : List Char} (hcs : AllBlank cs) : ReadsValue l cs []
  | some {gap v tail : List Char} (hgap : AllBlank gap) (hv : Solid v) (htail : AllBlank tail) :
      ReadsValue l (gap ++ v ++ tail) [tokenOf .value (l.past gap) v]

/-- **The line grammar as a relation.** Each rule is one form of a line, with the
indent, the gaps between the tokens and the tail spelled out. -/
inductive Reads (d : Dialect) (carried assigned : Bool) (l : Location) :
    List Char → LineReading → Prop
  | blank {indent : List Char} (hi : AllBlank indent) :
      Reads d carried assigned l indent
        ⟨[], false, if takesUp d carried indent then .value else .nothing⟩
  | comment {indent cs : List Char} {c : Char} (hi : AllBlank indent)
      (hc : d.isCommentSign c = true) :
      Reads d carried assigned l (indent ++ c :: cs)
        ⟨[tokenOf .comment (l.past indent) (c :: cs)], takesUp d carried indent, .comment⟩
  | value {indent v tail : List Char} (hi : AllBlank indent)
      (htaken : takesUp d carried indent = true) (hv : Solid v)
      (hc : ∀ c ∈ v.head?, d.isCommentSign c = false) (htail : AllBlank tail) :
      Reads d carried assigned l (indent ++ v ++ tail)
        ⟨[tokenOf .value (l.past indent) v], runsOn d true (indent ++ v ++ tail), .value⟩
  | assignment {indent cs : List Char} {ts : List Token} (hi : AllBlank indent)
      (htaken : takesUp d carried indent = false) (ha : assigned = false)
      (hts : ReadsValue ((l.past indent).past ['=']) cs ts) :
      Reads d carried assigned l (indent ++ '=' :: cs)
        ⟨tokenOf .assignment (l.past indent) ['='] :: ts, runsOn d true (indent ++ '=' :: cs),
          .value⟩
  | closedHeader {indent name tail : List Char} (hi : AllBlank indent)
      (htaken : takesUp d carried indent = false) (hname : ']' ∉ name) :
      Reads d carried assigned l (indent ++ '[' :: (name ++ [']']) ++ tail)
        ⟨[tokenOf .header (l.past indent) ('[' :: (name ++ [']']))], false, .discarded⟩
  | openHeader {indent name tail : List Char} (hi : AllBlank indent)
      (htaken : takesUp d carried indent = false) (hs : Solid ('[' :: name)) (hname : ']' ∉ name)
      (htail : AllBlank tail) :
      Reads d carried assigned l (indent ++ '[' :: name ++ tail)
        ⟨[tokenOf .header (l.past indent) ('[' :: name)], false, .header⟩
  | key {indent cs tail : List Char} {c : Char} (hi : AllBlank indent)
      (htaken : takesUp d carried indent = false) (hc : d.isCommentSign c = false)
      (hb : c ≠ '[') (ha : c = '=' → assigned = true) (hs : Solid (c :: cs)) (he : '=' ∉ cs)
      (htail : AllBlank tail) :
      Reads d carried assigned l (indent ++ c :: cs ++ tail)
        ⟨[tokenOf .key (l.past indent) (c :: cs)], runsOn d false (indent ++ c :: cs ++ tail),
          .key⟩
  | directive {indent cs gap rest : List Char} {c : Char} {ts : List Token}
      (hi : AllBlank indent) (htaken : takesUp d carried indent = false)
      (hc : d.isCommentSign c = false) (hb : c ≠ '[') (ha : c = '=' → assigned = true)
      (hs : Solid (c :: cs)) (he : '=' ∉ cs) (hgap : AllBlank gap)
      (hts : ReadsValue ((l.past (indent ++ c :: cs ++ gap)).past ['=']) rest ts) :
      Reads d carried assigned l (indent ++ c :: cs ++ gap ++ '=' :: rest)
        ⟨tokenOf .key (l.past indent) (c :: cs) ::
            tokenOf .assignment (l.past (indent ++ c :: cs ++ gap)) ['='] :: ts,
          runsOn d true (indent ++ c :: cs ++ gap ++ '=' :: rest), .value⟩

/-! ## Blanks and what they surround -/

variable {d : Dialect} {carried assigned : Bool} {l : Location}

theorem isBlank_of_isCommentSign {c : Char} (h : d.isCommentSign c = true) :
    isBlank c = false := by
  have hsign : c = '#' ∨ c = ';' := by
    cases d <;> simp only [Dialect.isCommentSign, Bool.or_eq_true, beq_iff_eq] at h
    · exact h
    · exact Or.inl h
  rcases hsign with rfl | rfl <;> rfl

theorem isCommentSign_equal (d : Dialect) : d.isCommentSign '=' = false := by
  cases d <;> rfl

theorem isCommentSign_bracket (d : Dialect) : d.isCommentSign '[' = false := by
  cases d <;> rfl

/-- A character that is not blank is not among the blanks of a tail. -/
theorem notMem_append_blank {c : Char} {cs tail : List Char} (hc : isBlank c = false)
    (hcs : c ∉ cs) (htail : AllBlank tail) : c ∉ cs ++ tail := by
  have hnot : c ∉ tail := fun hmem => by simp [htail c hmem] at hc
  simp [hcs, hnot]

/-- Characters whose first one is not blank are a solid part and blanks. -/
theorem exists_solid_append {c : Char} (hc : isBlank c = false) (cs : List Char) :
    ∃ v tail, cs = v ++ tail ∧ Solid (c :: v) ∧ AllBlank tail := by
  -- from the back, where a blank joins the tail and anything else ends the solid part
  induction cs using List.reverseRecOn with
  | nil => exact ⟨[], [], rfl, ⟨by simp [hc], by simp [hc], by simp⟩, by simp [AllBlank]⟩
  | append_singleton cs x ih =>
    by_cases hx : isBlank x = true
    · obtain ⟨v, tail, rfl, hv, htail⟩ := ih
      refine ⟨v, tail ++ [x], by simp, hv, fun y hy => ?_⟩
      rcases List.mem_append.1 hy with hy | hy
      · exact htail y hy
      · rw [List.mem_singleton.1 hy]
        exact hx
    · have hlast : (c :: (cs ++ [x])).getLast? = some x := by
        rw [← List.cons_append, List.getLast?_concat]
      refine ⟨cs ++ [x], [], by simp, ⟨by simp [hc], ?_, by simp⟩, by simp [AllBlank]⟩
      rw [hlast]
      simpa using hx

/-- Trimming leaves the solid part. -/
theorem rdropWhile_solid {v tail : List Char} (hv : Solid v) (htail : AllBlank tail) :
    (v ++ tail).rdropWhile isBlank = v := by
  induction tail using List.reverseRecOn with
  | nil =>
    rw [List.append_nil, List.rdropWhile_eq_self_iff]
    intro hne
    simp [hv.last _ (List.getLast?_eq_some_getLast hne)]
  | append_singleton tail x ih =>
    have hx : isBlank x = true := htail x (by simp)
    rw [← List.append_assoc, List.rdropWhile_concat_pos _ _ _ hx]
    exact ih fun y hy => htail y (by simp [hy])

theorem rdropWhile_solid_cons {c : Char} {v tail : List Char} (hv : Solid (c :: v))
    (htail : AllBlank tail) : (c :: (v ++ tail)).rdropWhile isBlank = c :: v :=
  rdropWhile_solid hv htail

theorem Solid.head_blank {c : Char} {v : List Char} (h : Solid (c :: v)) : isBlank c = false :=
  h.head c (by simp)

theorem takeWhile_indent {indent cs : List Char} (hi : AllBlank indent)
    (hcs : ∀ c ∈ cs.head?, isBlank c = false) : (indent ++ cs).takeWhile isBlank = indent := by
  rw [List.takeWhile_append_of_pos hi]
  cases cs with
  | nil => simp
  | cons c cs => simp [hcs c (by simp)]

theorem dropWhile_indent {indent cs : List Char} (hi : AllBlank indent)
    (hcs : ∀ c ∈ cs.head?, isBlank c = false) : (indent ++ cs).dropWhile isBlank = cs := by
  rw [List.dropWhile_append_of_pos hi]
  cases cs with
  | nil => simp
  | cons c cs => simp [hcs c (by simp)]

/-- A text is a run of blanks and what begins with no blank. -/
theorem exists_indent (cs : List Char) :
    ∃ indent rest, cs = indent ++ rest ∧ AllBlank indent ∧
      ∀ c ∈ rest.head?, isBlank c = false := by
  refine ⟨cs.takeWhile isBlank, cs.dropWhile isBlank, by simp, ?_, ?_⟩
  · intro c hc
    exact List.mem_takeWhile_imp hc
  · intro c hc
    have hnot := List.head?_dropWhile_not isBlank cs
    rw [Option.mem_def.1 hc] at hnot
    exact hnot

theorem ne_backslash_of_isBlank {c : Char} (h : isBlank c = true) : c ≠ '\\' := by
  rintro rfl
  exact absurd h (by decide)

/-- The place after an assignment and some blanks. -/
theorem past_assigned (l : Location) (pre gap : List Char) :
    ((l.past pre).past ['=']).past gap = l.past (pre ++ '=' :: gap) := by
  rw [← Location.past_append, ← Location.past_append]
  simp

/-- A line that ends in an assignment and blanks does not end in a backslash. -/
theorem getLast?_assigned_ne {pre cs : List Char} (hcs : AllBlank cs) :
    (pre ++ '=' :: cs).getLast? ≠ some '\\' := by
  rw [List.getLast?_append_of_ne_nil _ (by simp)]
  cases hlast : cs.getLast? with
  | none => simp [List.getLast?_cons, hlast]
  | some x =>
    have hne := ne_backslash_of_isBlank (hcs x (List.mem_of_getLast? hlast))
    simpa [List.getLast?_cons, hlast] using hne

/-! ## Function and relation -/

theorem readsValue_assignedValue (cs : List Char) : ReadsValue l cs (assignedValue l cs) := by
  obtain ⟨gap, rest, rfl, hgap, hrest⟩ := exists_indent cs
  unfold assignedValue
  simp only [takeWhile_indent hgap hrest, dropWhile_indent hgap hrest]
  cases rest with
  | nil => simpa using ReadsValue.none hgap
  | cons c rest =>
    obtain ⟨v, tail, rfl, hv, htail⟩ := exists_solid_append (hrest c (by simp)) rest
    rw [rdropWhile_solid_cons hv htail, ← List.cons_append, ← List.append_assoc]
    simpa using ReadsValue.some hgap hv htail

theorem ReadsValue.eq_assignedValue {cs : List Char} {ts : List Token} (h : ReadsValue l cs ts) :
    ts = assignedValue l cs := by
  unfold assignedValue
  cases h with
  | none hcs => simp [List.dropWhile_eq_nil_iff.2 hcs]
  | @some gap v tail hgap hv htail =>
    have hrest : ∀ c ∈ (v ++ tail).head?, isBlank c = false := by
      intro c hc
      rw [List.head?_append_of_ne_nil _ hv.ne_nil] at hc
      exact hv.head c hc
    simp only [List.append_assoc, takeWhile_indent hgap hrest, dropWhile_indent hgap hrest,
      rdropWhile_solid hv htail]
    simp [hv.ne_nil]

/-- The rules for a line, once its indent is set apart. -/
theorem readLine_indent {indent cs : List Char} {c : Char} (hi : AllBlank indent)
    (hc : isBlank c = false) :
    readLine d carried assigned l (indent ++ c :: cs) =
      if d.isCommentSign c then
        ⟨[tokenOf .comment (l.past indent) (c :: cs)], takesUp d carried indent, .comment⟩
      else if takesUp d carried indent then
        ⟨[tokenOf .value (l.past indent) ((c :: cs).rdropWhile isBlank)],
          runsOn d true (indent ++ c :: cs), .value⟩
      else if c = '=' && !assigned then
        ⟨assignmentTokens (l.past indent) cs, runsOn d true (indent ++ c :: cs), .value⟩
      else if c = '[' then
        readHeader (l.past indent) cs
      else
        readDirective d (l.past indent) (indent ++ c :: cs) c cs := by
  have hhead : ∀ x ∈ (c :: cs).head?, isBlank x = false := by simp [hc]
  unfold readLine readTaken
  simp only [takeWhile_indent hi hhead, dropWhile_indent hi hhead]

/-- A header is cut at its first `]`. -/
theorem takeWhile_name {name tail : List Char} {stop : Char} (h : stop ∉ name) :
    (name ++ stop :: tail).takeWhile (· != stop) = name := by
  have hname : ∀ c ∈ name, (c != stop) = true := by
    intro c hc
    simpa using fun heq : c = stop => h (heq ▸ hc)
  rw [List.takeWhile_append_of_pos hname]
  simp

theorem dropWhile_name {name tail : List Char} {stop : Char} (h : stop ∉ name) :
    (name ++ stop :: tail).dropWhile (· != stop) = stop :: tail := by
  have hname : ∀ c ∈ name, (c != stop) = true := by
    intro c hc
    simpa using fun heq : c = stop => h (heq ▸ hc)
  rw [List.dropWhile_append_of_pos hname]
  simp

theorem takeWhile_of_notMem {cs : List Char} {stop : Char} (h : stop ∉ cs) :
    cs.takeWhile (· != stop) = cs := by
  rw [List.takeWhile_eq_self_iff]
  intro c hc
  simpa using fun heq : c = stop => h (heq ▸ hc)

theorem dropWhile_of_notMem {cs : List Char} {stop : Char} (h : stop ∉ cs) :
    cs.dropWhile (· != stop) = [] := by
  rw [List.dropWhile_eq_nil_iff]
  intro c hc
  simpa using fun heq : c = stop => h (heq ▸ hc)

theorem reads_readHeader {indent cs : List Char} (hi : AllBlank indent)
    (htaken : takesUp d carried indent = false) :
    Reads d carried assigned l (indent ++ '[' :: cs) (readHeader (l.past indent) cs) := by
  unfold readHeader
  by_cases hmem : ']' ∈ cs
  · obtain ⟨name, tail, rfl, hname⟩ := List.eq_append_cons_of_mem hmem
    rw [if_pos hmem, takeWhile_name hname]
    have hline : indent ++ '[' :: (name ++ ']' :: tail) =
        indent ++ '[' :: (name ++ [']']) ++ tail := by simp
    rw [hline]
    exact Reads.closedHeader hi htaken hname
  · rw [if_neg hmem]
    obtain ⟨name, tail, rfl, hs, htail⟩ := exists_solid_append (c := '[') rfl cs
    rw [rdropWhile_solid_cons hs htail, ← List.cons_append, ← List.append_assoc]
    exact Reads.openHeader hi htaken hs (fun h => hmem (List.mem_append_left _ h)) htail

theorem reads_readDirective {indent cs : List Char} {c : Char} (hi : AllBlank indent)
    (hblank : isBlank c = false) (htaken : takesUp d carried indent = false)
    (hc : d.isCommentSign c = false) (hb : c ≠ '[') (ha : c = '=' → assigned = true) :
    Reads d carried assigned l (indent ++ c :: cs)
      (readDirective d (l.past indent) (indent ++ c :: cs) c cs) := by
  unfold readDirective
  by_cases hmem : '=' ∈ cs
  · obtain ⟨name, rest, rfl, hname⟩ := List.eq_append_cons_of_mem hmem
    simp only [takeWhile_name hname, dropWhile_name hname]
    obtain ⟨v, gap, rfl, hs, hgap⟩ := exists_solid_append hblank name
    have he : '=' ∉ v := fun h => hname (List.mem_append_left _ h)
    have hplace : l.past (indent ++ c :: v ++ gap) = (l.past indent).past (c :: (v ++ gap)) := by
      rw [List.append_assoc, Location.past_append, List.cons_append]
    have hline : indent ++ c :: (v ++ gap ++ '=' :: rest) =
        indent ++ c :: v ++ gap ++ '=' :: rest := by simp
    rw [rdropWhile_solid_cons hs hgap, ← hplace, hline]
    exact Reads.directive hi htaken hc hb ha hs he hgap (readsValue_assignedValue rest)
  · simp only [takeWhile_of_notMem hmem, dropWhile_of_notMem hmem]
    obtain ⟨v, tail, rfl, hs, htail⟩ := exists_solid_append hblank cs
    have he : '=' ∉ v := fun h => hmem (List.mem_append_left _ h)
    rw [rdropWhile_solid_cons hs htail, ← List.cons_append, ← List.append_assoc]
    exact Reads.key hi htaken hc hb ha hs he htail

/-- **Every line is of one of the forms**, with the reading the function gives. -/
theorem reads_readLine (d : Dialect) (carried assigned : Bool) (l : Location)
    (line : List Char) : Reads d carried assigned l line (readLine d carried assigned l line) := by
  obtain ⟨indent, rest, rfl, hi, hrest⟩ := exists_indent line
  cases rest with
  | nil =>
    rw [List.append_nil, readLine, readTaken]
    simp only [List.takeWhile_eq_self_iff.2 hi, List.dropWhile_eq_nil_iff.2 hi]
    exact Reads.blank hi
  | cons c cs =>
    have hblank : isBlank c = false := hrest c (by simp)
    rw [readLine_indent hi hblank]
    -- in the order of `readLine`: comment, carried value, assignment, header, directive
    split_ifs with hc htaken ha hb
    · exact Reads.comment hi hc
    · obtain ⟨v, tail, rfl, hv, htail⟩ := exists_solid_append hblank cs
      have hsign : ∀ x ∈ (c :: v).head?, d.isCommentSign x = false := by simpa using hc
      rw [rdropWhile_solid_cons hv htail, ← List.cons_append, ← List.append_assoc]
      exact Reads.value hi htaken hv hsign htail
    · simp only [Bool.and_eq_true, decide_eq_true_eq, Bool.not_eq_true'] at ha
      obtain ⟨rfl, ha⟩ := ha
      exact Reads.assignment hi (by simpa using htaken) ha (readsValue_assignedValue cs)
    · subst hb
      exact reads_readHeader hi (by simpa using htaken)
    · refine reads_readDirective hi hblank (by simpa using htaken) (by simpa using hc) hb ?_
      rintro rfl
      simpa using ha

/-- A character that begins no assignment. -/
theorem assigns_eq_false {c : Char} (ha : c = '=' → assigned = true) :
    (c = '=' && !assigned) = false := by
  by_cases hc : c = '='
  · simp [ha hc]
  · simp [hc]

/-- **And of one only.** -/
theorem Reads.eq_readLine {line : List Char} {r : LineReading}
    (h : Reads d carried assigned l line r) : r = readLine d carried assigned l line := by
  cases h with
  | blank hi =>
    unfold readLine readTaken
    simp only [List.takeWhile_eq_self_iff.2 hi, List.dropWhile_eq_nil_iff.2 hi]
  | comment hi hc =>
    rw [readLine_indent hi (isBlank_of_isCommentSign hc), if_pos hc]
  | @value indent v tail hi htaken hv hc htail =>
    obtain ⟨c, v, rfl⟩ := List.exists_cons_of_ne_nil hv.ne_nil
    have hsign : d.isCommentSign c = false := hc c (by simp)
    rw [List.append_assoc, List.cons_append, readLine_indent hi hv.head_blank, hsign, htaken,
      rdropWhile_solid_cons hv htail]
    simp
  | assignment hi htaken ha hts =>
    rw [readLine_indent hi rfl, isCommentSign_equal, htaken, ha, hts.eq_assignedValue]
    simp [assignmentTokens]
  | closedHeader hi htaken hname =>
    rw [List.append_assoc, List.cons_append, readLine_indent hi rfl, isCommentSign_bracket, htaken]
    simp [readHeader, takeWhile_name hname]
  | @openHeader indent name tail hi htaken hs hname htail =>
    have hmem : ']' ∉ name ++ tail := notMem_append_blank rfl hname htail
    rw [List.append_assoc, List.cons_append, readLine_indent hi rfl, isCommentSign_bracket, htaken]
    simp [readHeader, hmem, rdropWhile_solid_cons hs htail]
  | @key indent cs tail c hi htaken hc hb ha hs he htail =>
    have hmem : '=' ∉ cs ++ tail := notMem_append_blank rfl he htail
    rw [List.append_assoc, List.cons_append, readLine_indent hi hs.head_blank, hc, htaken,
      assigns_eq_false ha, readDirective, takeWhile_of_notMem hmem, dropWhile_of_notMem hmem,
      rdropWhile_solid_cons hs htail]
    simp [hb]
  | @directive indent cs gap rest c ts hi htaken hc hb ha hs he hgap hts =>
    have hmem : '=' ∉ cs ++ gap := notMem_append_blank rfl he hgap
    have hline : indent ++ c :: cs ++ gap ++ '=' :: rest =
        indent ++ c :: (cs ++ gap ++ '=' :: rest) := by simp
    have hplace : l.past (indent ++ c :: cs ++ gap) = (l.past indent).past (c :: (cs ++ gap)) := by
      rw [List.append_assoc, Location.past_append, List.cons_append]
    rw [hline, readLine_indent hi hs.head_blank, hc, htaken, assigns_eq_false ha, readDirective,
      takeWhile_name hmem, dropWhile_name hmem, hts.eq_assignedValue, rdropWhile_solid_cons hs hgap,
      hplace]
    simp [hb, assignmentTokens]

end Grammar

end UnitFile
