import UnitFile.Folding.Candidates
/-!
# Folding a token list

Folding finds the folds of the wanted families, keeps those that nest, and tells
which were dropped and how many regions stay open.
-/

namespace UnitFile

/-- What folding a token list finds. -/
structure Folding where
  nesting : Nesting
  /-- The number of regions that are never closed. -/
  unclosed : Nat
deriving DecidableEq

/-- Folds a token list. -/
def folding (mark : List Char → Marker) (options : FoldOptions) (tokens : List Token) : Folding :=
  { nesting := nest (foldCandidates mark options tokens)
    unclosed :=
      if options.comments || options.regions then
        (CommentScan.ofTokens mark options tokens).opened.length
      else 0 }

/-- The folds of a token list. -/
def folds (mark : List Char → Marker) (options : FoldOptions) (tokens : List Token) : List Fold :=
  (folding mark options tokens).nesting.kept

end UnitFile
