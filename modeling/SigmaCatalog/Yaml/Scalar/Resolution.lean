import SigmaCatalog.Yaml.Node
import SigmaCatalog.Yaml.Problem
import SigmaCatalog.Yaml.Scalar.Folding
import SigmaCatalog.Yaml.Value

/-!
# What a scalar means

A plain scalar without a tag is null, a truth value, an integer, a floating point number or, if it
is none of these, a text.  Quoted and block scalars are texts.  The tags of the core types ask for
their type whatever the style.
-/

namespace SigmaCatalog.Yaml.Scalar

def isNull (text : String) : Bool :=
  ["null", "Null", "NULL", "~"].contains text

def bool? (text : String) : Option Bool :=
  if ["true", "True", "TRUE"].contains text then some true
  else if ["false", "False", "FALSE"].contains text then some false
  else none

/-- The number that digits of a base spell; there must be at least one. -/
def digits? (base : Nat) (text : List Char) : Option Nat :=
  if text.isEmpty then none
  else text.foldl (fun total c => do
    let digit ← hexValue? c
    if digit < base then return (← total) * base + digit else none) (some 0)

def isSign (c : Char) : Bool :=
  c == '+' || c == '-'

/-- Whether a text is digits with a needless zero in front, after an optional sign. -/
def hasNeedlessZero (text : List Char) : Bool :=
  let body :=
    match text with
    | c :: rest => if isSign c then rest else c :: rest
    | [] => []
  match body with
  | '0' :: c :: rest => (c :: rest).all fun c => '0' ≤ c && c ≤ '9'
  | _ => false

/-- The magnitude of an integer after its sign: hexadecimal, octal or binary after a prefix, and
decimal without one. -/
def magnitude? : List Char → Option Nat
  | '0' :: 'x' :: rest => digits? 16 rest
  | '0' :: 'o' :: rest => digits? 8 rest
  | '0' :: 'b' :: rest => digits? 2 rest
  | text => digits? 10 text

def integer? (text : List Char) : Option Int :=
  if hasNeedlessZero text then none
  else match text with
    | '+' :: rest => (magnitude? rest).map Int.ofNat
    | '-' :: rest => (magnitude? rest).map fun n => -(n : Int)
    | text => (magnitude? text).map Int.ofNat

/-- The integer a text spells, unless it is beyond 128 bits; between 64 and 128 bits it is refused. -/
def boundedInteger? (text : List Char) : Except Problem (Option Int) :=
  match integer? text with
  | none => .ok none
  | some n =>
    if -0x8000000000000000 ≤ n && n < 0x10000000000000000 then .ok (some n)
    else if -0x80000000000000000000000000000000 ≤ n && n < 0x100000000000000000000000000000000 then .error .wideInteger
    else .ok none

/-- The decimal digits at the start of a text and the rest. -/
def spanDigits (text : List Char) : List Char × List Char :=
  (text.takeWhile fun c => '0' ≤ c && c ≤ '9', text.dropWhile fun c => '0' ≤ c && c ≤ '9')

/-- The exponent that a text spells after its letter. -/
def exponent? (text : List Char) : Option Int :=
  match text with
  | '+' :: rest => (digits? 10 rest).map Int.ofNat
  | '-' :: rest => (digits? 10 rest).map fun n => -(n : Int)
  | text => (digits? 10 text).map Int.ofNat

/-- The floating point number that digits with an optional point and exponent spell. -/
def decimal? (negative : Bool) (text : List Char) : Option Binary64 :=
  let (whole, rest) := spanDigits text
  let (fraction, rest) :=
    match rest with
    | '.' :: rest => spanDigits rest
    | rest => ([], rest)
  match digits? 10 (whole ++ fraction) with
  | none => none
  | some digits =>
    let exponent : Option Int :=
      match rest with
      | [] => some 0
      | 'e' :: rest | 'E' :: rest => exponent? rest
      | _ => none
    exponent.map fun exponent => Binary64.ofDecimal negative digits (exponent - fraction.length)

/-- The infinite number or the value that is no number that a text spells. -/
def special? (text : String) : Option Binary64 :=
  if [".inf", ".Inf", ".INF", "+.inf", "+.Inf", "+.INF"].contains text then
    some (.infinite false)
  else if ["-.inf", "-.Inf", "-.INF"].contains text then some (.infinite true)
  else if [".nan", ".NaN", ".NAN"].contains text then some .nan
  else none

/-- The floating point number a text spells; a decimal beyond the finite range spells none. -/
def real? (text : String) : Option Binary64 :=
  match special? text with
  | some x => some x
  | none =>
    let x :=
      match text.toList with
      | '+' :: rest => decimal? false rest
      | '-' :: rest => decimal? true rest
      | rest => decimal? false rest
    match x with
    | some x => if x.isFinite then some x else none
    | none => none

def plainValue (text : String) : Except Problem Value := do
  if text.isEmpty || isNull text then return .null
  match bool? text with
  | some b => return .bool b
  | none =>
    match ← boundedInteger? text.toList with
    | some n => return .integer n
    | none =>
      if hasNeedlessZero text.toList then return .string text
      match real? text with
      | some x => return .real x
      | none => return .string text

/-- The octets of the tag of a core type. -/
def coreTag (name : String) : TagOctets :=
  ("tag:yaml.org,2002:" ++ name).toList.map fun c => c.toNat.toUInt8

/-- The local tag that octets spell, without its `!`; the octets of a local tag begin with `!`. -/
def localTag? (octets : TagOctets) : Option String :=
  match octets with
  | 33 :: rest =>
    match String.fromUTF8? (if rest.isEmpty then [33] else rest).toByteArray with
    | some text =>
      match text.toList with
      | '!' :: c :: rest => some (String.ofList (c :: rest))
      | _ => some text
    | none => none
  | _ => none

/-- The value of a scalar whose tag is not taken as a local tag. -/
def value (tag : Option TagOctets) (text : String) (style : Style) : Except Problem Value := do
  match tag with
  | none => if style = .plain then plainValue text else return .string text
  | some tag =>
    if tag = coreTag "bool" then
      match bool? text with
      | some b => return .bool b
      | none => throw .badScalar
    else if tag = coreTag "int" then
      match ← boundedInteger? text.toList with
      | some n => return .integer n
      | none => throw .badScalar
    else if tag = coreTag "float" then
      match real? text with
      | some x => return .real x
      | none => throw .badScalar
    else if tag = coreTag "null" then
      if isNull text then return .null else throw .badScalar
    else if tag.head? = some 33 && style = .plain then plainValue text
    else return .string text

end SigmaCatalog.Yaml.Scalar
