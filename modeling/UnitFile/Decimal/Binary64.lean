/-!
# Decimal — binary floating point numbers of 64 bits

A number is a sign and a magnitude: a significand below `2 ^ 53` times a power of
two, infinity, or not a number. `Binary64.ofDecimal` reads a decimal by exact
arithmetic and rounds once, to the nearest number and to an even significand when
two are equally near.
-/

namespace UnitFile

namespace Decimal

/-- A power of two. -/
def powTwo (n : Nat) : Nat :=
  Nat.pow 2 n

/-- A power of ten. -/
def powTen (n : Nat) : Nat :=
  Nat.pow 10 n

/-- The size of a floating point number. -/
inductive Magnitude where
  /-- The number `significand * 2 ^ exponent`. -/
  | finite (significand : Nat) (exponent : Int)
  | infinite
  | notANumber
deriving DecidableEq

/-- A floating point number of 64 bits. -/
structure Binary64 where
  negative : Bool := false
  magnitude : Magnitude
deriving DecidableEq

namespace Binary64

/-- The least exponent of a finite number. -/
def minExponent : Int := -1074

/-- The greatest exponent of a finite number. -/
def maxExponent : Int := 971

/-- Whether the number is zero, of either sign. -/
def isZero (x : Binary64) : Bool :=
  match x.magnitude with
  | .finite 0 _ => true
  | _ => false

/-- A quotient rounded to the nearest whole number, a half to the even one. -/
def roundDiv (num den : Nat) : Nat :=
  let quot := num / den
  let rest := num % den
  if den < 2 * rest || (2 * rest == den && quot % 2 == 1) then quot + 1 else quot

/-- The quotient `num / den / 2 ^ exponent`, rounded. -/
def roundAt (num den : Nat) (exponent : Int) : Nat :=
  if 0 ≤ exponent then roundDiv num (den * powTwo exponent.toNat)
  else roundDiv (num * powTwo (-exponent).toNat) den

/-- Whether the quotient `num / den / 2 ^ exponent` is below `2 ^ 53`. -/
def fitsAt (num den : Nat) (exponent : Int) : Bool :=
  if 0 ≤ exponent then num < powTwo 53 * (den * powTwo exponent.toNat)
  else num * powTwo (-exponent).toNat < powTwo 53 * den

/-- The magnitude nearest to a positive quotient. -/
def nearest (num den : Nat) : Magnitude :=
  let guess : Int := (Nat.log2 num : Int) - (Nat.log2 den : Int) - 53
  let exponent := max minExponent (if fitsAt num den guess then guess else guess + 1)
  let significand := roundAt num den exponent
  let (significand, exponent) :=
    if significand = powTwo 53 then (powTwo 52, exponent + 1) else (significand, exponent)
  if maxExponent < exponent then .infinite
  else if significand = 0 then .finite 0 0
  else .finite significand exponent

/-- The number nearest to `digits * 10 ^ exponent`. Decimals far outside the range
are told by their size alone. -/
def ofDecimal (negative : Bool) (digits : Nat) (exponent : Int) : Binary64 :=
  let size : Int := (Nat.toDigits 10 digits).length + exponent
  ⟨negative,
    if digits = 0 || size < -330 then .finite 0 0
    else if 320 < size then .infinite
    else if 0 ≤ exponent then nearest (digits * powTen exponent.toNat) 1
    else nearest digits (powTen (-exponent).toNat)⟩

end Binary64

end Decimal

end UnitFile
