import UnitFile.Lexer.Resume
/-!
# Lexer — the tokens of a text

`tokenize` reads a text from its start. `retokenize` does the same with the
tokens of an earlier text at hand: it keeps those before the resume point and
reads only the rest. Both are total; any text has tokens.
-/

namespace UnitFile

open Lexer

/-- The tokens of a text, and what one more character would belong to. -/
def tokenize (d : Dialect) (text : String) : Output :=
  (Machine.run d {} (symbols text.toList)).output

/-- The tokens of a text, reusing the tokens of an earlier one as far as they
still hold. -/
def retokenize (d : Dialect) (earlier : List Token) (text : String) : Output :=
  let point := resumePoint d text.toList earlier
  let rest := ((Text.splitAtByte? point.start.offset text.toList).map Prod.snd).getD []
  (Machine.run d (Machine.resume (earlier.take point.reused) point.start) (symbols rest)).output

/-- Without earlier tokens the text is read from its start. -/
theorem retokenize_nil (d : Dialect) (text : String) : retokenize d [] text = tokenize d text := by
  simp [retokenize, tokenize, resumePoint, lastResumable, Machine.resume, State.atLineStart]

/-- The same output with its last token only. -/
def Lexer.Output.lastOnly (o : Output) : Output :=
  { o with tokens := o.tokens.getLast?.toList }

end UnitFile
