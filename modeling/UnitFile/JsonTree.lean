/-!
# JSON output

A JSON value keeps the members of its objects in order. It is printed on one line,
or over several with two spaces of indentation a level; empty arrays and objects
stay on one line. Quotes, backslashes and control characters are escaped in
strings, all else is written as it is.
-/

namespace UnitFile

/-- A JSON value. -/
inductive JsonTree where
  | null
  | number (n : Nat)
  | string (s : String)
  | array (items : List JsonTree)
  | object (members : List (String × JsonTree))

namespace JsonTree

/-- A hexadecimal number of two digits. -/
def twoHexDigits (n : Nat) : List Char :=
  [Nat.digitChar (n / 16), Nat.digitChar (n % 16)]

/-- The form of a character in a string. -/
def escapedChar (c : Char) : List Char :=
  if c = '"' then ['\\', '"']
  else if c = '\\' then ['\\', '\\']
  else if c = '\x08' then ['\\', 'b']
  else if c = '\t' then ['\\', 't']
  else if c = '\n' then ['\\', 'n']
  else if c = '\x0c' then ['\\', 'f']
  else if c = '\r' then ['\\', 'r']
  else if c < ' ' then ['\\', 'u', '0', '0'] ++ twoHexDigits c.toNat
  else [c]

/-- The form of a string. -/
def quotedString (s : String) : String :=
  String.ofList ('"' :: s.toList.flatMap escapedChar ++ ['"'])

/-- The value of something that may be missing. -/
def ofOption {α : Type} (f : α → JsonTree) : Option α → JsonTree
  | none => null
  | some a => f a

mutual

/-- The form on one line. -/
def compact : JsonTree → String
  | null => "null"
  | number n => toString n
  | string s => quotedString s
  | array items => "[" ++ ",".intercalate (compactItems items) ++ "]"
  | object members => "\x7b" ++ ",".intercalate (compactMembers members) ++ "\x7d"

/-- The forms of items on one line. -/
def compactItems : List JsonTree → List String
  | [] => []
  | j :: js => j.compact :: compactItems js

/-- The forms of members on one line. -/
def compactMembers : List (String × JsonTree) → List String
  | [] => []
  | (key, j) :: members => (quotedString key ++ ":" ++ j.compact) :: compactMembers members

end

/-- The indentation of a level. -/
def indentation (level : Nat) : String :=
  String.ofList (List.replicate (2 * level) ' ')

/-- Lines one level below `level`, between an opening and a closing bracket. -/
def block (level : Nat) (opening closing : String) (lines : List String) : String :=
  if lines.isEmpty then opening ++ closing
  else
    let inner := indentation (level + 1)
    opening ++ "\n" ++ ",\n".intercalate (lines.map (inner ++ ·)) ++ "\n" ++
      indentation level ++ closing

mutual

/-- The form over several lines, at a level of indentation. -/
def pretty (level : Nat) : JsonTree → String
  | null => "null"
  | number n => toString n
  | string s => quotedString s
  | array items => block level "[" "]" (prettyItems (level + 1) items)
  | object members => block level "\x7b" "\x7d" (prettyMembers (level + 1) members)

/-- The forms of items over several lines. -/
def prettyItems (level : Nat) : List JsonTree → List String
  | [] => []
  | j :: js => j.pretty level :: prettyItems level js

/-- The forms of members over several lines. -/
def prettyMembers (level : Nat) : List (String × JsonTree) → List String
  | [] => []
  | (key, j) :: members =>
    (quotedString key ++ ": " ++ j.pretty level) :: prettyMembers level members

end

/-- The printed form. -/
def render (indented : Bool) (j : JsonTree) : String :=
  if indented then j.pretty 0 else j.compact

end JsonTree

end UnitFile
