import UnitFile.Text.Bytes
import UnitFile.Text.WhiteSpace
import UnitFile.Text.Word
/-!
# Folding — region markers

A comment opens a region when its sign, `#`, `;` or `;#`, is followed by the word
`region`, with white space in between or not, and closes one when the word is
`endregion`. The word has to end there: `#regional` is a plain comment.
-/

namespace UnitFile

/-- What a comment does to regions. -/
inductive Marker where
  | opens
  | closes
  | plain
deriving DecidableEq

namespace Marker

/-- The text of a comment after its sign; nothing if it has none. -/
def afterSign? : List Char → Option (List Char)
  | '#' :: cs => some cs
  | ';' :: '#' :: cs => some cs
  | ';' :: cs => some cs
  | _ => none

/-- Whether a text starts with a given word that ends there. -/
def startsWithWord (word cs : List Char) : Bool :=
  match Text.afterStart? word cs with
  | none => false
  | some [] => true
  | some (c :: _) => !Text.isWord c

/-- The marker that the text of a comment is. -/
def ofComment (text : List Char) : Marker :=
  match afterSign? text with
  | none => plain
  | some cs =>
    let cs := cs.dropWhile Text.isWhiteSpace
    if startsWithWord "region".toList cs then opens
    else if startsWithWord "endregion".toList cs then closes
    else plain

end Marker

end UnitFile
