import SigmaCatalog.Decimal.Shortest

/-!
# Written forms of floating point numbers

`plain` writes a number positionally, however large or small, with no mark of being a floating
point number when it is whole.  `marked` always shows that mark: whole numbers end in `.0`, and
numbers from `10 ^ 16` up and below `10 ^ -5` get an exponent.
-/

namespace SigmaCatalog.Decimal

def zeros (n : Nat) : String :=
  String.ofList (List.replicate n '0')

/-- The digits with a point in them or in front of them, where `place` digits stand before it and
`place` is less than their number. -/
def withPoint (digits : List Char) (place : Int) : String :=
  if 0 < place then
    String.ofList (digits.take place.toNat) ++ "." ++ String.ofList (digits.drop place.toNat)
  else "0." ++ zeros (-place).toNat ++ String.ofList digits

/-- A positive decimal, positionally. -/
def Digits.plain (decimal : Digits) : String :=
  let digits := Nat.toDigits 10 decimal.digits
  if 0 ≤ decimal.exponent then String.ofList digits ++ zeros decimal.exponent.toNat
  else withPoint digits (digits.length + decimal.exponent)

/-- A positive decimal with a point or an exponent. -/
def Digits.marked (decimal : Digits) : String :=
  let digits := Nat.toDigits 10 decimal.digits
  let place := digits.length + decimal.exponent
  if 0 ≤ decimal.exponent && place ≤ 16 then
    String.ofList digits ++ zeros decimal.exponent.toNat ++ ".0"
  else if -5 < place && place ≤ 16 then withPoint digits place
  else
    let mantissa :=
      match digits with
      | first :: second :: rest => String.ofList (first :: '.' :: second :: rest)
      | digits => String.ofList digits
    mantissa ++ "e" ++ toString (place - 1)

end SigmaCatalog.Decimal

namespace SigmaCatalog

namespace Binary64

/-- A minus sign, if there is one. -/
def signText (negative : Bool) : String :=
  if negative then "-" else ""

/-- The number written positionally. -/
def plainText : Binary64 → String
  | nan => "NaN"
  | infinite negative => signText negative ++ "inf"
  | finite negative significand exponent =>
    signText negative ++
      (if significand = 0 then "0" else (Decimal.shortest .up significand exponent).plain)

/-- A finite number written with its mark. -/
def markedText (negative : Bool) (significand : Nat) (exponent : Int) : String :=
  signText negative ++
    (if significand = 0 then "0.0" else (Decimal.shortest .even significand exponent).marked)

end Binary64

end SigmaCatalog
