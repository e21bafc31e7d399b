/-!
# Folding — folds and their nesting

A fold hides the lines between its first and its last. `nest` orders folds by
their first line, longer ones first, and keeps those that nest within or stand
beside the folds kept before; a fold that would cross the end of one of them is
dropped. Of folds over the same lines the first is kept.
-/

namespace UnitFile

/-- What a fold hides, where that is told. -/
inductive FoldKind where
  | comment
  | region
deriving DecidableEq

/-- The name of a fold kind. -/
def FoldKind.name : FoldKind → String
  | comment => "comment"
  | region => "region"

/-- A stretch of lines that can be folded, by its first and its last line. -/
structure Fold where
  startLine : Nat
  stopLine : Nat
  kind : Option FoldKind := none
deriving DecidableEq

namespace Fold

/-- Whether a fold hides anything. -/
def isMultiline (f : Fold) : Bool :=
  f.startLine < f.stopLine

/-- Whether two folds are over the same lines. -/
def sameLines (f g : Fold) : Bool :=
  f.startLine == g.startLine && f.stopLine == g.stopLine

/-- The order of folds: by first line, and from long to short. -/
def precedes (f g : Fold) : Bool :=
  f.startLine < g.startLine || (f.startLine == g.startLine && g.stopLine ≤ f.stopLine)

/-- The greatest line number that editors take. -/
def lastEditorLine : Nat :=
  4294967295

/-- The fold with line numbers that editors take. -/
def clamped (f : Fold) : Fold :=
  { f with
    startLine := min f.startLine lastEditorLine
    stopLine := min f.stopLine lastEditorLine }

end Fold

/-- The folds kept and the folds dropped, each in order. -/
structure Nesting where
  kept : List Fold := []
  dropped : List Fold := []
deriving DecidableEq

namespace Nesting

/-- Drops folds over the same lines as the fold kept before them, `last` at the
start. -/
def withoutRepeats (last : Option Fold) : List Fold → List Fold
  | [] => []
  | f :: fs =>
    if last.any f.sameLines then withoutRepeats last fs
    else f :: withoutRepeats (some f) fs

/-- Goes through ordered folds with the last lines of the folds that are open,
innermost first. -/
def sweep (opened : List Nat) : List Fold → Nesting
  | [] => {}
  | f :: fs =>
    let opened := opened.dropWhile (· ≤ f.startLine)
    if opened.head?.any (· < f.stopLine) then
      let rest := sweep opened fs
      { rest with dropped := f :: rest.dropped }
    else
      let rest := sweep (f.stopLine :: opened) fs
      { rest with kept := f :: rest.kept }

end Nesting

/-- Keeps the folds that nest within or stand beside one another. -/
def nest (folds : List Fold) : Nesting :=
  Nesting.sweep [] (Nesting.withoutRepeats none (folds.mergeSort Fold.precedes))

end UnitFile
