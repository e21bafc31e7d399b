import UnitFile.Lexer.Tokenize
import UnitFile.Directive
/-!
# The context of a cursor

What is being typed at an offset is read off the tokens of the text before it and
off the forecast: the kind, the section header above, the key whose value is being
typed, and the token that ends at the cursor.
-/

namespace UnitFile

/-- What is being typed at a cursor. -/
structure CursorContext where
  /-- The kind of token the next character would belong to. -/
  kind : Kind
  /-- The section header the cursor stands under. -/
  header : Option String
  /-- The key whose value is being typed. -/
  key : Option String
  /-- The token under way that ends at the cursor. -/
  typed : Option Token
deriving DecidableEq

/-- A cursor that is at no place of the text. -/
structure CursorOutside where
  offset : Nat
  size : Nat
deriving DecidableEq

/-- The wording of a cursor at no place of the text. -/
def CursorOutside.message (e : CursorOutside) : String :=
  s!"cursor offset {e.offset} is outside the document ({e.size} bytes) or inside a character"

/-- The key whose value the tokens end in: the key before the assignment before
the values and comments at the end. -/
def valuedKey? (tokens : List Token) : Option String :=
  match tokens.reverse.dropWhile Token.isValueOrComment with
  | assignment :: key :: _ =>
    if assignment.kind = .assignment ∧ key.kind = .key then some key.text else none
  | _ => none

namespace CursorContext

/-- The token that is still under way at the cursor. -/
def typed? (tokens : List Token) (forecast : Kind) (offset : Nat) : Option Token :=
  tokens.getLast?.filter fun t => t.kind == forecast && t.range.stop.offset == offset

/-- The context of a cursor at `offset`, from the tokens before it and their
forecast. -/
def ofTokens (tokens : List Token) (forecast : Kind) (offset : Nat) : CursorContext :=
  let typed := typed? tokens forecast offset
  let settled := if typed.isSome then tokens.dropLast else tokens
  { kind := forecast
    header := (settled.reverse.find? fun t => t.kind == .header).map Token.text
    key := if forecast = .value then valuedKey? tokens else none
    typed := typed }

end CursorContext

/-- The context of a cursor at a byte offset of a text. -/
def cursorContext (d : Dialect) (text : String) (offset : Nat) :
    Except CursorOutside CursorContext :=
  match Text.splitAtByte? offset text.toList with
  | none => .error ⟨offset, Text.byteLength text.toList⟩
  | some (before, _) =>
    let output := tokenize d (String.ofList before)
    .ok (CursorContext.ofTokens output.tokens output.forecast offset)

end UnitFile
