import UnitFile.Directive
import UnitFile.Folding.Fold
import UnitFile.Folding.Region
/-!
# Folding — the folds of a token list

Folds come in four families. A run of comments is one fold, a region is one from
its opening to its closing marker, a value that goes on over later lines folds
from its assignment to its last line, and a section folds from its header to the
last token before the next header that is no comment. Comments at column zero
below a value are not part of it; regions that stay open give no fold. Which
comments are the markers of regions is given to the scan.
-/

namespace UnitFile

/-- Which families of folds are wanted. -/
structure FoldOptions where
  comments : Bool := true
  regions : Bool := true
  values : Bool := true
  sections : Bool := true
deriving DecidableEq

/-- The comments read so far. -/
structure CommentScan where
  /-- The first and the last line of the run of comments under way. -/
  run : Option (Nat × Nat) := none
  /-- The lines of the regions that are open, innermost first. -/
  opened : List Nat := []
  /-- The folds found, last one first. -/
  found : List Fold := []
deriving DecidableEq

namespace CommentScan

/-- Ends the run of comments under way. -/
def flush (s : CommentScan) : CommentScan :=
  match s.run with
  | none => s
  | some (first, last) => { s with run := none, found := ⟨first, last, some .comment⟩ :: s.found }

/-- Opens a region. -/
def openRegion (s : CommentScan) (line : Nat) : CommentScan :=
  { s.flush with opened := line :: s.opened }

/-- Closes the innermost region, if there is one. -/
def closeRegion (s : CommentScan) (line : Nat) : CommentScan :=
  let s := s.flush
  match s.opened with
  | [] => s
  | first :: rest => { s with opened := rest, found := ⟨first, line, some .region⟩ :: s.found }

/-- Adds a comment to the run under way. -/
def extend (s : CommentScan) (line : Nat) : CommentScan :=
  { s with run := some ((s.run.map Prod.fst).getD line, line) }

/-- Reads one token. -/
def feed (mark : List Char → Marker) (options : FoldOptions) (s : CommentScan) (t : Token) :
    CommentScan :=
  if t.kind = .comment then
    match if options.regions then mark t.text.toList else .plain with
    | .opens => s.openRegion t.startLine
    | .closes => s.closeRegion t.startLine
    | .plain => if options.comments then s.extend t.startLine else s
  else
    s.flush

/-- Reads all tokens. -/
def ofTokens (mark : List Char → Marker) (options : FoldOptions) (tokens : List Token) :
    CommentScan :=
  (tokens.foldl (feed mark options) {}).flush

end CommentScan

/-- Whether a token is a comment at the very start of its line. -/
def Token.isDetachedComment (t : Token) : Bool :=
  t.kind == .comment && t.range.start.column == 0

/-- The lines that belong to the value after an assignment: values and comments,
without the detached comments at the end. -/
def valueBody (tokens : List Token) : List Token :=
  ((tokens.takeWhile Token.isValueOrComment).reverse.dropWhile Token.isDetachedComment).reverse

/-- The fold of the value after an assignment on a line, when it goes on over
later lines. -/
def valueFold? (line : Nat) (tokens : List Token) : Option Fold :=
  let body := valueBody tokens
  if body.any fun t => t.kind == .value && line < t.startLine then
    body.getLast?.map fun t => ⟨line, t.stopLine, none⟩
  else
    none

/-- The folds of all values. -/
def valueFolds : List Token → List Fold
  | [] => []
  | t :: ts =>
    (if t.kind = .assignment then (valueFold? t.startLine ts).toList else []) ++ valueFolds ts

/-- The fold of the section with a given header. -/
def sectionFold (header : Token) (tokens : List Token) : Fold :=
  let body := tokens.takeWhile fun t => t.kind != .header
  let last := (body.filter fun t => t.kind != .comment).getLast?
  ⟨header.startLine, (last.getD header).stopLine, none⟩

/-- The folds of all sections. -/
def sectionFolds : List Token → List Fold
  | [] => []
  | t :: ts => (if t.kind = .header then [sectionFold t ts] else []) ++ sectionFolds ts

/-- All folds of a token list before they are nested: comments and regions in the
order they end, then values, then sections. -/
def foldCandidates (mark : List Char → Marker) (options : FoldOptions) (tokens : List Token) :
    List Fold :=
  let comments :=
    if options.comments || options.regions then
      (CommentScan.ofTokens mark options tokens).found.reverse
    else []
  let values := if options.values then valueFolds tokens else []
  let sections := if options.sections then sectionFolds tokens else []
  (comments ++ values ++ sections).filter Fold.isMultiline

end UnitFile
