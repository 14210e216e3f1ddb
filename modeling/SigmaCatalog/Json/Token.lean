import SigmaCatalog.Json.Basic
import SigmaCatalog.Reading

/-!
# Tokens of JSON text

A JSON text is read as a list of tokens: punctuation, the three words, strings and numbers.

An integer that fits 64 bits is kept exactly.  Any other number is read from its first digits, as
many as an unsigned 64-bit integer can hold: this significand is rounded to a floating point number
and then multiplied or divided by a power of ten, which rounds again.
-/

namespace SigmaCatalog.Json

inductive Token where
  | openBrace
  | closeBrace
  | openBracket
  | closeBracket
  | colon
  | comma
  | scalar (value : Json)
  deriving Repr

namespace Token

open Reading (Step)

def hexValue? (c : Char) : Option Nat :=
  if '0' ≤ c && c ≤ '9' then some (c.toNat - 48)
  else if 'a' ≤ c && c ≤ 'f' then some (c.toNat - 87)
  else if 'A' ≤ c && c ≤ 'F' then some (c.toNat - 55)
  else none

def hex4? (a b c d : Char) : Option Nat := do
  return (((← hexValue? a) * 16 + (← hexValue? b)) * 16 + (← hexValue? c)) * 16 + (← hexValue? d)

/-- The character a one-letter escape stands for. -/
def shortEscape? : Char → Option Char
  | '"' => some '"'
  | '\\' => some '\\'
  | '/' => some '/'
  | 'b' => some '\x08'
  | 'f' => some '\x0c'
  | 'n' => some '\n'
  | 'r' => some '\r'
  | 't' => some '\t'
  | _ => none

def isHighSurrogate (unit : Nat) : Bool :=
  0xD800 ≤ unit && unit ≤ 0xDBFF

def isLowSurrogate (unit : Nat) : Bool :=
  0xDC00 ≤ unit && unit ≤ 0xDFFF

/-- Reads the characters of a string up to and including its closing quote; `done` holds those read
so far, last character first. -/
def stringBody (done : List Char) : (input : List Char) → Option (Step input String)
  | [] => none
  | '"' :: rest => some ⟨String.ofList done.reverse, rest, by simp⟩
  | '\\' :: 'u' :: a :: b :: c :: d :: rest =>
    match hex4? a b c d with
    | none => none
    | some unit =>
      if isLowSurrogate unit then none
      else if isHighSurrogate unit then
        match rest with
        | '\\' :: 'u' :: e :: f :: g :: h :: last =>
          match hex4? e f g h with
          | none => none
          | some low =>
            if isLowSurrogate low then
              let c := Char.ofNat (0x10000 + (unit - 0xD800) * 1024 + (low - 0xDC00))
              (stringBody (c :: done) last).map (·.widen (by simp only [List.length_cons]; omega))
            else none
        | _ => none
      else (stringBody (Char.ofNat unit :: done) rest).map
        (·.widen (by simp only [List.length_cons]; omega))
  | '\\' :: c :: rest =>
    match shortEscape? c with
    | none => none
    | some c => (stringBody (c :: done) rest).map (·.widen (by simp only [List.length_cons]; omega))
  | c :: rest =>
    if c.toNat < 0x20 then none
    else (stringBody (c :: done) rest).map (·.widen (by simp))
  termination_by input => input.length

def isDigit (c : Char) : Bool :=
  '0' ≤ c && c ≤ '9'

/-- The digits at the start of a text and the rest. -/
def spanDigits (text : List Char) : List Char × List Char :=
  (text.takeWhile isDigit, text.dropWhile isDigit)

def digitsValue (digits : List Char) : Nat :=
  digits.foldl (fun n c => n * 10 + (c.toNat - 48)) 0

/-- Takes digits into a significand as long as it fits 64 bits; yields it and how many were taken. -/
def takeSignificand : (significand taken : Nat) → List Char → Nat × Nat
  | significand, taken, [] => (significand, taken)
  | significand, taken, c :: rest =>
    let next := significand * 10 + (c.toNat - 48)
    if next < 0x10000000000000000 then takeSignificand next (taken + 1) rest else (significand, taken)

/-- The greatest exponent whose power of ten is applied in one step. -/
def maxPower : Nat := 308

def powerOfTen (exponent : Nat) : Binary64 :=
  Binary64.ofNat (Nat.pow 10 exponent)

/-- Divides by a power of ten, in steps of at most `10 ^ 308`. -/
def divideByPower (x : Binary64) : (steps exponent : Nat) → Binary64
  | 0, _ => x
  | steps + 1, exponent =>
    if exponent ≤ maxPower then x.magnitudeQuotient (powerOfTen exponent)
    else divideByPower (x.magnitudeQuotient (powerOfTen maxPower)) steps (exponent - maxPower)

/-- The number `significand * 10 ^ exponent`; there is none beyond the finite range. -/
def realOf? (negative : Bool) (significand : Nat) (exponent : Int) : Option Binary64 :=
  let start := Binary64.ofNat significand
  let magnitude : Option Binary64 :=
    if significand = 0 then some start
    else if 0 ≤ exponent then
      if maxPower < exponent.toNat then none
      else
        let product := start.magnitudeProduct (powerOfTen exponent.toNat)
        if product.isFinite then some product else none
    else some (divideByPower start 4 (-exponent).toNat)
  magnitude.map fun x => if negative then x.negate else x

/-- The exponent part of a number: its sign, its digits and the rest. -/
def exponentPart (text : List Char) : Option (Bool × List Char × List Char) :=
  let (negative, text) :=
    match text with
    | '+' :: rest => (false, rest)
    | '-' :: rest => (true, rest)
    | text => (false, text)
  let (digits, rest) := spanDigits text
  if digits.isEmpty then none else some (negative, digits, rest)

/-- The exponents that are told apart; greater ones count as this one. -/
def exponentBound : Nat := 0x7fffffff

/-- A floating point number from the digits before and after its point and its exponent. -/
def realFrom? (negative : Bool) (whole fraction : List Char) (exponent : Option (Bool × List Char)) :
    Option Json :=
  let (significand, taken) := takeSignificand 0 0 whole
  let dropped := whole.length - taken
  let (significand, fractionTaken) := takeSignificand significand 0 fraction
  let start : Int := (dropped : Int) - (fractionTaken : Int)
  let value : Option Binary64 :=
    match exponent with
    | none => realOf? negative significand start
    | some (down, digits) =>
      let n := digitsValue digits
      if exponentBound < n then
        if significand ≠ 0 && !down then none else some (Binary64.zero negative)
      else realOf? negative significand (if down then start - n else start + n)
  value.map fun x => number (.real x)

/-- Reads a number that begins with the given text, after its minus sign if it has one. -/
def numberFrom (negative : Bool) (text : List Char) : Option (Json × List Char) :=
  let (whole, rest) := spanDigits text
  match whole with
  | [] => none
  | '0' :: _ :: _ => none
  | _ =>
    let finish (fraction rest : List Char) : Option (Json × List Char) :=
      match rest with
      | 'e' :: rest | 'E' :: rest =>
        match exponentPart rest with
        | none => none
        | some (down, digits, rest) =>
          (realFrom? negative whole fraction (some (down, digits))).map (·, rest)
      | rest => (realFrom? negative whole fraction none).map (·, rest)
    match rest with
    | '.' :: rest =>
      let (fraction, rest) := spanDigits rest
      if fraction.isEmpty then none else finish fraction rest
    | 'e' :: _ | 'E' :: _ => finish [] rest
    | rest =>
      let n := digitsValue whole
      if negative then
        if n = 0 || 0x8000000000000000 < n then finish [] rest else some (ofInt (-n), rest)
      else if n < 0x10000000000000000 then some (ofInt n, rest)
      else finish [] rest

/-- Reads a number at the start of a text. -/
def numberAt (text : List Char) : Option (Json × List Char) :=
  match text with
  | '-' :: rest => numberFrom true rest
  | text => numberFrom false text

/-- Whether a character may stand between tokens. -/
def isSpace (c : Char) : Bool :=
  c == ' ' || c == '\t' || c == '\n' || c == '\r'

/-- The tokens of a text; `steps` bounds their number. -/
def scan : (steps : Nat) → (text : List Char) → Option (List Token)
  | _, [] => some []
  | 0, _ => none
  | steps + 1, c :: rest =>
    if isSpace c then scan steps rest
    else match c, rest with
      | '\x7b', rest => (openBrace :: ·) <$> scan steps rest
      | '\x7d', rest => (closeBrace :: ·) <$> scan steps rest
      | '[', rest => (openBracket :: ·) <$> scan steps rest
      | ']', rest => (closeBracket :: ·) <$> scan steps rest
      | ':', rest => (colon :: ·) <$> scan steps rest
      | ',', rest => (comma :: ·) <$> scan steps rest
      | 'n', 'u' :: 'l' :: 'l' :: rest => (scalar .null :: ·) <$> scan steps rest
      | 't', 'r' :: 'u' :: 'e' :: rest => (scalar (.bool true) :: ·) <$> scan steps rest
      | 'f', 'a' :: 'l' :: 's' :: 'e' :: rest => (scalar (.bool false) :: ·) <$> scan steps rest
      | '"', rest =>
        match stringBody [] rest with
        | none => none
        | some step => (scalar (.string step.value) :: ·) <$> scan steps step.rest
      | c, rest =>
        match numberAt (c :: rest) with
        | none => none
        | some (value, rest) => (scalar value :: ·) <$> scan steps rest

def ofText (text : String) : Option (List Token) :=
  scan (text.toList.length + 1) text.toList

end Token

end SigmaCatalog.Json
