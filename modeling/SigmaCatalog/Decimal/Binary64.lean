/-!
# Binary floating point numbers of 64 bits

A finite number is written `± significand * 2 ^ exponent` with a significand below `2 ^ 53` and an
exponent from `-1074` to `971`; the significand is at least `2 ^ 52` unless the exponent is
`-1074`.  Conversions from exact numbers round to the nearest number of this form, and to the one
with the even significand when two are equally near.
-/

namespace SigmaCatalog

/-- A 64-bit floating point number. -/
inductive Binary64 where
  /-- The number `± significand * 2 ^ exponent`. -/
  | finite (negative : Bool) (significand : Nat) (exponent : Int)
  | infinite (negative : Bool)
  /-- The one value that is no number. -/
  | nan
  deriving DecidableEq, Repr

namespace Binary64

def minExponent : Int := -1074

def maxExponent : Int := 971

def zero (negative : Bool) : Binary64 :=
  finite negative 0 minExponent

/-- The nearest integer to `num / den`, or the even one of two that are equally near. -/
def divToEven (num den : Nat) : Nat :=
  let quotient := num / den
  let rest := num % den
  if den < 2 * rest || (2 * rest == den && quotient % 2 == 1) then quotient + 1 else quotient

/-- The ratio `num / (den * 2 ^ exponent)` as a numerator and a denominator. -/
def scaled (num den : Nat) (exponent : Int) : Nat × Nat :=
  if 0 ≤ exponent then (num, den * Nat.pow 2 exponent.toNat) else (num * Nat.pow 2 (-exponent).toNat, den)

/-- The least exponent under which the significand of `num / den` has at most 53 digits. -/
def exponentOf (num den : Nat) : Int :=
  let low : Int := (num.log2 : Int) - (den.log2 : Int) - 53
  let (n, d) := scaled num den low
  max minExponent (if 0x20000000000000 ≤ n / d then low + 1 else low)

/-- The number nearest to `± num / den`. -/
def ofRatio (negative : Bool) (num den : Nat) : Binary64 :=
  if num = 0 then zero negative
  else
    let exponent := exponentOf num den
    let (n, d) := scaled num den exponent
    let rounded := divToEven n d
    let (significand, exponent) :=
      if rounded = 0x20000000000000 then (0x10000000000000, exponent + 1) else (rounded, exponent)
    if maxExponent < exponent then infinite negative
    else finite negative significand exponent

/-- The number nearest to a natural number. -/
def ofNat (n : Nat) : Binary64 :=
  ofRatio false n 1

/-- How many decimal digits a natural number has; zero has none. -/
def digitCount (n : Nat) : Nat :=
  if n = 0 then 0 else (Nat.toDigits 10 n).length

/-- The number nearest to `± digits * 10 ^ exponent`.  Numbers far outside the range are decided by
the place of their first digit, so that no huge power is computed. -/
def ofDecimal (negative : Bool) (digits : Nat) (exponent : Int) : Binary64 :=
  let place := (digitCount digits : Int) + exponent
  if digits = 0 || place < -330 then zero negative
  else if 310 < place then infinite negative
  else if 0 ≤ exponent then ofRatio negative (digits * Nat.pow 10 exponent.toNat) 1
  else ofRatio negative digits (Nat.pow 10 (-exponent).toNat)

def isFinite : Binary64 → Bool
  | finite .. => true
  | _ => false

def negate : Binary64 → Binary64
  | finite negative significand exponent => finite (!negative) significand exponent
  | infinite negative => infinite (!negative)
  | nan => nan

/-- The magnitude of a finite number as a numerator and a denominator. -/
def ratio (significand : Nat) (exponent : Int) : Nat × Nat :=
  if 0 ≤ exponent then (significand * Nat.pow 2 exponent.toNat, 1)
  else (significand, Nat.pow 2 (-exponent).toNat)

/-- The rounded product of the magnitudes of two finite numbers; infinite if either is not finite. -/
def magnitudeProduct : Binary64 → Binary64 → Binary64
  | finite _ s e, finite _ s' e' =>
    let (n, d) := ratio s e
    let (n', d') := ratio s' e'
    ofRatio false (n * n') (d * d')
  | _, _ => infinite false

/-- The rounded quotient of the magnitudes of a finite number and a positive one. -/
def magnitudeQuotient : Binary64 → Binary64 → Binary64
  | finite _ s e, finite _ s' e' =>
    let (n, d) := ratio s e
    let (n', d') := ratio s' e'
    ofRatio false (n * d') (d * n')
  | _, _ => infinite false

/-- Whether two numbers are equal as numbers: the zeros are, and the value that is no number is
counted equal to itself. -/
def sameNumber : Binary64 → Binary64 → Bool
  | finite _ 0 _, finite _ 0 _ => true
  | a, b => a == b

end Binary64

end SigmaCatalog
