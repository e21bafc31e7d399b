import UnitFile.Token
/-!
# Directives

A directive is a key with its value, under the section header before it. A key
that an assignment follows collects the values after it, over comments, up to any
other token; their texts are joined as they stand. A key without an assignment is
an incomplete directive.
-/

namespace UnitFile

/-- A key with its value. -/
structure Directive where
  /-- The section header above, brackets included. -/
  header : Option String
  key : String
  keyRange : Range
  /-- The joined value; none while no assignment follows the key. -/
  value : Option String
  valueRanges : List Range
deriving DecidableEq

namespace Directive

/-- The header text without its brackets. -/
def sectionOfHeader (header : String) : String :=
  let inner :=
    match header.toList with
    | '[' :: rest => rest
    | whole => whole
  String.ofList (if inner.getLast? == some ']' then inner.dropLast else inner)

/-- The name of the section a directive stands in. -/
def sectionName (v : Directive) : Option String :=
  v.header.map sectionOfHeader

/-- The least range around the whole value. -/
def valueRange (v : Directive) : Option Range :=
  Range.boundingBox v.valueRanges

/-- Whether the key has an assignment. -/
def isComplete (v : Directive) : Bool :=
  v.value.isSome

/-- Whether an offset touches the key or a line of the value. -/
def covers (v : Directive) (offset : Nat) : Bool :=
  v.keyRange.touches offset || v.valueRanges.any fun r => r.touches offset

end Directive

/-- Whether a token can stand in the run of lines of one value. -/
def Token.isValueOrComment (t : Token) : Bool :=
  t.kind == .value || t.kind == .comment

/-- The lines of the value that an assignment before `tokens` has. -/
def valueTokens (tokens : List Token) : List Token :=
  (tokens.takeWhile Token.isValueOrComment).filter fun t => t.kind == .value

/-- The directive of a key with given tokens after it. -/
def directiveOf (header : Option String) (key : Token) (rest : List Token) : Directive :=
  match rest with
  | [] => ⟨header, key.text, key.range, none, []⟩
  | t :: rest =>
    if t.kind = .assignment then
      let lines := valueTokens rest
      { header := header
        key := key.text
        keyRange := key.range
        value := some (String.join (lines.map Token.text))
        valueRanges := lines.map Token.range }
    else
      ⟨header, key.text, key.range, none, []⟩

/-- The directives of tokens that stand under a given header. -/
def directivesUnder (header : Option String) : List Token → List Directive
  | [] => []
  | t :: ts =>
    match t.kind with
    | .header => directivesUnder (some t.text) ts
    | .key => directiveOf header t ts :: directivesUnder header ts
    | _ => directivesUnder header ts

/-- The directives of a token list, with or without the incomplete ones. -/
def directives (tokens : List Token) (withIncomplete : Bool) : List Directive :=
  (directivesUnder none tokens).filter fun v => v.isComplete || withIncomplete

/-- The index of the first directive that covers an offset. -/
def directiveIndexAt? (list : List Directive) (offset : Nat) : Option Nat :=
  list.findIdx? fun v => v.covers offset

/-- The first directive that covers an offset. -/
def directiveAt? (list : List Directive) (offset : Nat) : Option Directive :=
  list.find? fun v => v.covers offset

/-- The directives of a section with their indices. -/
def directivesInSection (list : List Directive) (name : String) : List (Directive × Nat) :=
  list.zipIdx.filter fun v => v.1.sectionName == some name

end UnitFile
