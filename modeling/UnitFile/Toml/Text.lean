import UnitFile.Toml.Scan
/-!
# TOML — strings

Strings stand between double quotes, with escapes, or between single quotes,
without. Tripled quotes allow line breaks inside: the one right after the opening
is left out, and `\r\n` counts as `\n`. Up to two further quotes before the
closing ones belong to the string.
-/

namespace UnitFile

namespace Toml

/-- The value of a hexadecimal digit. -/
def hexDigit? (c : Char) : Option Nat :=
  if c.isDigit then some (c.toNat - '0'.toNat)
  else if 'a' ≤ c && c ≤ 'f' then some (c.toNat - 'a'.toNat + 10)
  else if 'A' ≤ c && c ≤ 'F' then some (c.toNat - 'A'.toNat + 10)
  else none

/-- The number that digits of a base stand for. -/
def numberOf (base : Nat) (digits : List Char) : Nat :=
  digits.foldl (fun n c => base * n + (hexDigit? c).getD 0) 0

/-- The character with a code point in hexadecimal digits. -/
def charOfHex? (digits : List Char) : Option Char := do
  let values ← digits.mapM hexDigit?
  let n := values.foldl (fun n d => 16 * n + d) 0
  if n.isValidChar then some (Char.ofNat n) else none

/-- Reads an escape, without its backslash. -/
def escape? : List Char → Option (Char × List Char)
  | 'b' :: cs => some ('\x08', cs)
  | 't' :: cs => some ('\t', cs)
  | 'n' :: cs => some ('\n', cs)
  | 'f' :: cs => some ('\x0c', cs)
  | 'r' :: cs => some ('\r', cs)
  | '"' :: cs => some ('"', cs)
  | '\\' :: cs => some ('\\', cs)
  | 'u' :: cs => hex 4 cs
  | 'U' :: cs => hex 8 cs
  | _ => none
where
  /-- Reads a code point of a given number of digits. -/
  hex (count : Nat) (cs : List Char) : Option (Char × List Char) :=
    if cs.length < count then none
    else (charOfHex? (cs.take count)).map fun c => (c, cs.drop count)

/-- What is left after blanks and a line break, if there is one. -/
def afterBreak? (cs : List Char) : Option (List Char) :=
  match cs.dropWhile isBlank with
  | '\n' :: rest => some rest
  | '\r' :: '\n' :: rest => some rest
  | _ => none

/-- Drops blanks and line breaks from the front. -/
def dropLayout : List Char → List Char
  | '\r' :: '\n' :: cs => dropLayout cs
  | c :: cs => if isBlank c || c == '\n' then dropLayout cs else c :: cs
  | [] => []

/-- Reads the quotes that end a string between tripled quotes: the ones that
belong to the string, and the rest. -/
def closingQuotes (quote : Char) (cs : List Char) : List Char × List Char :=
  let extra := min 2 ((cs.takeWhile (· == quote)).length - 3)
  (List.replicate extra quote, cs.drop (extra + 3))

/-- Reads the inside of a string between double quotes, with its end. -/
def basicInside (fuel : Nat) (lines : Bool) (cs : List Char) : Option (List Char × List Char) :=
  match fuel, cs with
  | 0, _ => none
  | _, [] => none
  | fuel + 1, '"' :: rest =>
    if !lines then some ([], rest)
    else if ['"', '"', '"'].isPrefixOf cs then some (closingQuotes '"' cs)
    else more fuel '"' rest
  | fuel + 1, '\\' :: rest =>
    match if lines then afterBreak? rest else none with
    | some below => basicInside fuel lines (dropLayout below)
    | none => do
      let (c, rest) ← escape? rest
      more fuel c rest
  | fuel + 1, '\r' :: '\n' :: rest => if lines then more fuel '\n' rest else none
  | fuel + 1, c :: rest =>
    if Scan.isTextChar c || (lines && c == '\n') then more fuel c rest else none
where
  /-- Goes on after a character of the string. -/
  more (fuel : Nat) (c : Char) (rest : List Char) : Option (List Char × List Char) :=
    (basicInside fuel lines rest).map fun found => (c :: found.1, found.2)

/-- Reads the inside of a string between single quotes, with its end. -/
def literalInside (lines : Bool) : List Char → Option (List Char × List Char)
  | [] => none
  | '\r' :: '\n' :: rest =>
    if lines then (literalInside lines rest).map fun found => ('\n' :: found.1, found.2) else none
  | c :: rest =>
    if c = '\'' then
      if !lines then some ([], rest)
      else if ['\'', '\''].isPrefixOf rest then some (closingQuotes '\'' (c :: rest))
      else (literalInside lines rest).map fun found => (c :: found.1, found.2)
    else if Scan.isTextChar c || (lines && c == '\n') then
      (literalInside lines rest).map fun found => (c :: found.1, found.2)
    else
      none

namespace Scan

/-- Takes a string on one line, if one comes next. -/
def lineString? : Scan (Option String) := do
  if ← accept "\"" then
    let inside ← ofFunction fun cs => basicInside (cs.length + 1) false cs
    return some (String.ofList inside)
  if ← accept "'" then
    let inside ← ofFunction (literalInside false)
    return some (String.ofList inside)
  return none

/-- Takes a string, if one comes next. -/
def string? : Scan (Option String) := do
  if ← accept "\"\"\"" then
    let _ ← lineBreak
    let inside ← ofFunction fun cs => basicInside (cs.length + 1) true cs
    return some (String.ofList inside)
  if ← accept "'''" then
    let _ ← lineBreak
    let inside ← ofFunction (literalInside true)
    return some (String.ofList inside)
  lineString?

end Scan

end Toml

end UnitFile
