import UnitFile.Toml.Moment
import UnitFile.Toml.Value
/-!
# TOML — scalars

A value that is no string, array or table is a run of letters, digits and the
signs `+ - _ . :`, and has to be a boolean, a number, a date or a time as a whole.
Integers have 64 bits.
-/

namespace UnitFile

namespace Toml

/-- The digits of a run in which single underscores may stand between digits. -/
def digitsOf? (isDigit : Char → Bool) : List Char → Option (List Char)
  | [] => none
  | c :: cs => if isDigit c then (go cs).map (c :: ·) else none
where
  /-- The digits after a digit. -/
  go : List Char → Option (List Char)
    | [] => some []
    | '_' :: c :: cs => if isDigit c then (go cs).map (c :: ·) else none
    | c :: cs => if isDigit c then (go cs).map (c :: ·) else none

/-- The sign at the front of a run, and the rest. -/
def splitSign : List Char → Bool × List Char
  | '-' :: cs => (true, cs)
  | '+' :: cs => (false, cs)
  | cs => (false, cs)

/-- The decimal digits of a whole number, which does not start with a superfluous
zero. -/
def wholeDigits? (cs : List Char) : Option (List Char) := do
  let digits ← digitsOf? Char.isDigit cs
  if digits.length ≠ 1 ∧ digits.head? = some '0' then none
  return digits

/-- The greatest integer. -/
def maxInteger : Nat := 9223372036854775807

/-- Reads an integer in hexadecimal, octal or binary digits, or in decimal digits
with a sign. -/
def integer? (run : List Char) : Option Int :=
  match run with
  | '0' :: 'x' :: cs => based 16 cs (fun c => (hexDigit? c).isSome)
  | '0' :: 'o' :: cs => based 8 cs (fun c => '0' ≤ c && c ≤ '7')
  | '0' :: 'b' :: cs => based 2 cs (fun c => c == '0' || c == '1')
  | _ => do
    let (negative, cs) := splitSign run
    let n := numberOf 10 (← wholeDigits? cs)
    if negative then
      if n ≤ maxInteger + 1 then some (-n) else none
    else
      if n ≤ maxInteger then some n else none
where
  /-- Reads digits of a base. -/
  based (base : Nat) (cs : List Char) (isDigit : Char → Bool) : Option Int := do
    let n := numberOf base (← digitsOf? isDigit cs)
    if n ≤ maxInteger then some n else none

/-- Reads the exponent of a float, without its sign letter. -/
def exponent? (cs : List Char) : Option Int := do
  let (negative, cs) := splitSign cs
  let n : Int := numberOf 10 (← digitsOf? Char.isDigit cs)
  return if negative then -n else n

/-- Whether a character is the sign letter of an exponent. -/
def isExponentSign (c : Char) : Bool :=
  c == 'e' || c == 'E'

/-- Reads a float: a whole number with a fraction, an exponent or both, or one of
the words for infinity and for no number. A float above all finite ones is
refused. -/
def float? (run : List Char) : Option Decimal.Binary64 := do
  let (negative, cs) := splitSign run
  if cs = "inf".toList then return ⟨negative, .infinite⟩
  if cs = "nan".toList then return ⟨negative, .notANumber⟩
  let (mantissa, tail) := cs.span fun c => !isExponentSign c
  let (whole, fraction) := mantissa.span fun c => c ≠ '.'
  if tail = [] ∧ fraction = [] then none
  let wholeDigits ← wholeDigits? whole
  let fractionDigits ← if fraction = [] then some [] else digitsOf? Char.isDigit (fraction.drop 1)
  let exponent ← if tail = [] then some 0 else exponent? (tail.drop 1)
  let x := Decimal.Binary64.ofDecimal negative (numberOf 10 (wholeDigits ++ fractionDigits))
    (exponent - fractionDigits.length)
  if x = ⟨false, .infinite⟩ then none
  return x

/-! ## Scalars -/

/-- Reads a run as a whole. -/
def scalar? (run : List Char) : Option Value :=
  if run = "true".toList then some (.boolean true)
  else if run = "false".toList then some (.boolean false)
  else
    (moment? .literal run).map Value.moment
      |>.or ((integer? run).map Value.integer)
      |>.or ((float? run).map Value.float)

/-- Whether a character can stand in a run. -/
def isRunChar (c : Char) : Bool :=
  c.isAlphanum || c ∈ ['+', '-', '_', '.', ':']

/-- Takes a boolean, a number, a date or a time. A date may be parted from its time
by a space. -/
def Scan.scalar : Scan Value := do
  let run ← takeRun isRunChar
  let later ← rest
  let run ←
    if (date? run).any (·.2 = []) && (later.drop 1).head?.any Char.isDigit && later.head? = some ' '
    then do
      Scan.expect " "
      pure (run ++ ' ' :: (← takeRun isRunChar))
    else pure run
  match scalar? run with
  | some v => return v
  | none => refuse

end Toml

end UnitFile
