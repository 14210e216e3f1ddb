import SigmaCatalog.Decimal.Binary64

/-!
# The shortest decimal that reads back

Among the decimals that round to a given number, `shortest` picks one with the fewest digits, and
among those the one nearest to the number.  For one, two, up to seventeen digits it tests the two
neighbours of the number on the grid of decimals with that many digits; the first grid with a
neighbour in the rounding interval wins.
-/

namespace SigmaCatalog.Decimal

/-- The decimal `digits * 10 ^ exponent`. -/
structure Digits where
  digits : Nat
  exponent : Int
  deriving DecidableEq, Repr

/-- Which of two equally near decimals is taken. -/
inductive Tie where
  | up
  | even
  deriving DecidableEq, Repr

/-- A rounding interval around a positive number, all four values over one denominator. -/
structure Interval where
  low : Nat
  value : Nat
  high : Nat
  den : Nat
  /-- Whether the ends belong to the interval. -/
  closed : Bool

/-- The reals that round to `significand * 2 ^ exponent`. -/
def Interval.around (significand : Nat) (exponent : Int) : Interval :=
  let below := if significand = 0x10000000000000 ∧ Binary64.minExponent < exponent then 1 else 2
  let (low, value, high) := (4 * significand - below, 4 * significand, 4 * significand + 2)
  let quarter := exponent - 2
  let closed := significand % 2 == 0
  if 0 ≤ quarter then
    let unit := Nat.pow 2 quarter.toNat
    { low := low * unit, value := value * unit, high := high * unit, den := 1, closed }
  else
    { low, value, high, den := Nat.pow 2 (-quarter).toNat, closed }

/-- Whether the interval holds `digits * 10 ^ exponent`. -/
def Interval.holds (interval : Interval) (decimal : Digits) : Bool :=
  let (scale, unit) : Nat × Nat :=
    if 0 ≤ decimal.exponent then (1, Nat.pow 10 decimal.exponent.toNat)
    else (Nat.pow 10 (-decimal.exponent).toNat, 1)
  let point := decimal.digits * unit * interval.den
  if interval.closed then interval.low * scale ≤ point && point ≤ interval.high * scale
  else interval.low * scale < point && point < interval.high * scale

/-- The place of the first decimal digit of `num / den`: the greatest `k` with `10 ^ k` not above
it, found upward from a lower bound. -/
def leadingPlace (num den : Nat) : Int :=
  let atLeast (k : Int) : Bool :=
    if 0 ≤ k then den * Nat.pow 10 k.toNat ≤ num else den ≤ num * Nat.pow 10 (-k).toNat
  let guess : Int := ((num.log2 : Int) - (den.log2 : Int) - 1) * 30103 / 100000 - 1
  let rec climb : Nat → Int → Int
    | 0, k => k
    | steps + 1, k => if atLeast (k + 1) then climb steps (k + 1) else k
  climb 8 guess

/-- The nearer of the neighbours of the number on the grid of multiples of `10 ^ exponent` that
belong to the interval. -/
def nearestOn (tie : Tie) (interval : Interval) (exponent : Int) : Option Digits :=
  let (num, den) : Nat × Nat :=
    if 0 ≤ exponent then (interval.value, interval.den * Nat.pow 10 exponent.toNat)
    else (interval.value * Nat.pow 10 (-exponent).toNat, interval.den)
  let below : Digits := { digits := num / den, exponent }
  let above : Digits := { digits := num / den + 1, exponent }
  let rest := 2 * (num % den)
  match interval.holds below && below.digits != 0, interval.holds above with
  | true, true =>
    if rest < den then some below
    else if den < rest then some above
    else match tie with
      | .up => some above
      | .even => if below.digits % 2 = 0 then some below else some above
  | true, false => some below
  | false, true => some above
  | false, false => none

/-- Removes the zeros at the end of the digits. -/
def Digits.trimZeros : Nat → Digits → Digits
  | 0, decimal => decimal
  | steps + 1, decimal =>
    if decimal.digits % 10 = 0 && decimal.digits != 0 then
      trimZeros steps { digits := decimal.digits / 10, exponent := decimal.exponent + 1 }
    else decimal

/-- A shortest decimal that rounds to `significand * 2 ^ exponent`, which is not zero. -/
def shortest (tie : Tie) (significand : Nat) (exponent : Int) : Digits :=
  let interval := Interval.around significand exponent
  let place := leadingPlace interval.value interval.den
  let rec search : Nat → Int → Digits
    | 0, unit => { digits := interval.value / interval.den, exponent := unit }
    | grids + 1, unit =>
      match nearestOn tie interval unit with
      | some decimal => decimal.trimZeros 20
      | none => search grids (unit - 1)
  search 18 place

end SigmaCatalog.Decimal
