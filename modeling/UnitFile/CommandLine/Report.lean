import UnitFile.Cursor
import UnitFile.Directive
import UnitFile.Folding
import UnitFile.JsonTree
/-!
# Command line — findings as JSON

The JSON forms of tokens, directives, folds and cursor contexts, with members in a
fixed order.
-/

namespace UnitFile

namespace JsonTree

/-- The form of a location. -/
def ofLocation (l : Location) : JsonTree :=
  .object [("offset", .number l.offset), ("line", .number l.line), ("column", .number l.column)]

/-- The form of a range. -/
def ofRange (r : Range) : JsonTree :=
  .object [("start", ofLocation r.start), ("end", ofLocation r.stop)]

/-- The form of a token. -/
def ofToken (t : Token) : JsonTree :=
  .object [("kind", .string t.kind.name), ("range", ofRange t.range), ("text", .string t.text)]

/-- The form of what the lexer finds. -/
def ofOutput (o : Lexer.Output) : JsonTree :=
  .object [("tokens", .array (o.tokens.map ofToken)), ("forecast", .string o.forecast.name)]

/-- The form of a directive. -/
def ofDirective (v : Directive) : JsonTree :=
  .object
    [("section", ofOption .string v.header), ("key", .string v.key),
      ("key_range", ofRange v.keyRange), ("value", ofOption .string v.value),
      ("value_ranges", .array (v.valueRanges.map ofRange))]

/-- The form of a fold; its kind is left out when there is none. -/
def ofFold (f : Fold) : JsonTree :=
  let kind := f.kind.toList.map fun k => ("kind", JsonTree.string k.name)
  .object ([("start_line", .number f.startLine), ("end_line", .number f.stopLine)] ++ kind)

/-- The form of a cursor context. -/
def ofContext (c : CursorContext) : JsonTree :=
  .object
    [("kind", .string c.kind.name), ("section", ofOption .string c.header),
      ("key", ofOption .string c.key), ("typed", ofOption ofToken c.typed)]

end JsonTree

end UnitFile
