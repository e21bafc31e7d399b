import UnitFile.Decimal.Binary64
/-!
# Decimal — the fewest digits that read back

A floating point number is written with the fewest decimal digits that round to
it again, and of those with the nearest. The numbers that round to it form an
interval, which holds its ends when the significand is even; the coarsest decimal
grid with a point in that interval gives the digits. They are written out
positionally, with a point and at least one digit after it.
-/

namespace UnitFile

namespace Decimal

/-- A fraction of natural numbers scaled by a power of two or ten. -/
structure Ratio where
  num : Nat
  den : Nat

/-- The fraction `n * 2 ^ exponent`. -/
def Ratio.ofBinary (n : Nat) (exponent : Int) : Ratio :=
  if 0 ≤ exponent then ⟨n * powTwo exponent.toNat, 1⟩ else ⟨n, powTwo (-exponent).toNat⟩

/-- The fraction `n * 10 ^ exponent`. -/
def Ratio.ofDecimal (n : Nat) (exponent : Int) : Ratio :=
  if 0 ≤ exponent then ⟨n * powTen exponent.toNat, 1⟩ else ⟨n, powTen (-exponent).toNat⟩

/-- How two fractions compare. -/
def Ratio.order (a b : Ratio) : Ordering :=
  compare (a.num * b.den) (b.num * a.den)

/-- The numbers that round to `significand * 2 ^ exponent`, as fractions of four
times the size. -/
structure Reach where
  low : Ratio
  value : Ratio
  high : Ratio
  /-- Whether the two ends round to the number as well. -/
  closed : Bool

/-- The reach of a finite number. Below a power of two the neighbour is nearer. -/
def Reach.of (significand : Nat) (exponent : Int) : Reach :=
  let below :=
    if significand = powTwo 52 && Binary64.minExponent < exponent then 1 else 2
  { low := Ratio.ofBinary (4 * significand - below) exponent
    value := Ratio.ofBinary (4 * significand) exponent
    high := Ratio.ofBinary (4 * significand + 2) exponent
    closed := significand % 2 = 0 }

/-- Whether `n * 10 ^ exponent` is within reach. -/
def Reach.holds (r : Reach) (n : Nat) (exponent : Int) : Bool :=
  let point := Ratio.ofDecimal (4 * n) exponent
  match r.low.order point, point.order r.high with
  | .lt, .lt => true
  | .gt, _ | _, .gt => false
  | _, _ => r.closed

/-- The point of the grid of step `10 ^ exponent` next to the value, of the two
around it, that is within reach. -/
def Reach.gridPoint? (r : Reach) (exponent : Int) : Option Nat :=
  let step := Ratio.ofDecimal 4 exponent
  let floor := r.value.num * step.den / (r.value.den * step.num)
  let ceiling := floor + 1
  match r.holds floor exponent && floor ≠ 0, r.holds ceiling exponent with
  | false, false => none
  | true, false => some floor
  | false, true => some ceiling
  | true, true =>
    -- the middle of the two decides, a tie goes to the even one
    match r.value.order (Ratio.ofDecimal (2 * (floor + ceiling)) exponent) with
    | .lt => some floor
    | .gt => some ceiling
    | .eq => some (if floor % 2 = 0 then floor else ceiling)

/-- The digits on the coarsest grid within reach, from the grid of step
`10 ^ exponent` downwards. -/
def Reach.digits (r : Reach) : Nat → Int → Nat × Int
  | 0, exponent => (0, exponent)
  | fuel + 1, exponent =>
    match r.gridPoint? exponent with
    | some n => (n, exponent)
    | none => r.digits fuel (exponent - 1)

/-- The fewest digits that read back as a finite number, and the power of ten of
the last one. -/
def shortest (significand : Nat) (exponent : Int) : Nat × Int :=
  if significand = 0 then (0, 0) else (Reach.of significand exponent).digits 660 310

/-- The number `n * 10 ^ exponent` without an exponent and with a point. -/
def positional (n : Nat) (exponent : Int) : List Char :=
  let digits := Nat.toDigits 10 n
  if 0 ≤ exponent then
    digits ++ List.replicate exponent.toNat '0' ++ ['.', '0']
  else
    let places := (-exponent).toNat
    let padded := List.replicate (places + 1 - digits.length) '0' ++ digits
    let whole := padded.length - places
    padded.take whole ++ '.' :: padded.drop whole

/-- The text of a floating point number. -/
def Binary64.shown (x : Binary64) : String :=
  let sign := if x.negative then "-" else ""
  match x.magnitude with
  | .finite significand exponent =>
    let (n, e) := shortest significand exponent
    sign ++ String.ofList (positional n e)
  | .infinite => sign ++ "inf"
  | .notANumber => "NaN"

end Decimal

end UnitFile
