import SigmaCatalog.Text.Splitting

/-!
# Hosts

The host of an address is a number in brackets of eight groups, a number of four parts, or a name.
A host is written in one way: numbers in their shortest form, names in lower case.  Names are of
ASCII characters here.
-/

namespace SigmaCatalog.Rest.Host

/-- The value of a digit in bases up to sixteen. -/
def digit? (base : Nat) (c : Char) : Option Nat :=
  let value :=
    if '0' ≤ c && c ≤ '9' then c.toNat - 48
    else if 'a' ≤ c && c ≤ 'f' then c.toNat - 87
    else if 'A' ≤ c && c ≤ 'F' then c.toNat - 55
    else 16
  if value < base then some value else none

/-- The number that digits spell; no digits spell zero. -/
def number? (base : Nat) (digits : List Char) : Option Nat :=
  digits.foldlM (fun number c => (digit? base c).map fun d => number * base + d) 0

/-- The parts of a text between the occurrences of a character. -/
def parts (sep : Char) (text : List Char) : List (List Char) :=
  let (first, others) := Text.splitAll sep text
  first :: others

/-- A text without the escapes of ASCII characters as a percent sign and two digits. -/
def unescape : List Char → List Char
  | '%' :: high :: low :: rest =>
    match digit? 16 high, digit? 16 low with
    | some h, some l => Char.ofNat (h * 16 + l) :: unescape rest
    | _, _ => '%' :: unescape (high :: low :: rest)
  | c :: rest => c :: unescape rest
  | [] => []

/-- The visible characters that a name may not hold. -/
def forbiddenChars : List Char :=
  ['#', '%', '/', ':', '<', '>', '?', '@', '[', '\\', ']', '^', '|']

/-- Whether a name may hold a character. -/
def isNameChar (c : Char) : Bool :=
  0x20 < c.toNat && c.toNat < 0x7F && !forbiddenChars.contains c

/-- A part of a number of four parts: hexadecimal after `0x`, octal after `0`, else decimal. -/
def quadPart? : List Char → Option Nat
  | [] => none
  | '0' :: 'x' :: digits => number? 16 digits
  | '0' :: 'X' :: digits => number? 16 digits
  | '0' :: c :: digits => number? 8 (c :: digits)
  | digits => number? 10 digits

/-- The parts of a host between dots, without an empty one at the end. -/
def labels (name : List Char) : List (List Char) :=
  let all := parts '.' name
  if 1 < all.length && all.getLast? == some [] then all.dropLast else all

/-- Whether the last part of a host is a number, so that the host must be one. -/
def endsInNumber (name : List Char) : Bool :=
  match (labels name).getLast? with
  | none => false
  | some [] => false
  | some part =>
    part.all Char.isDigit ||
      match part with
      | '0' :: 'x' :: digits => (number? 16 digits).isSome
      | '0' :: 'X' :: digits => (number? 16 digits).isSome
      | _ => false

/-- The value of the parts of a number; the last part fills the octets that the others leave. -/
def quadValue? : (places : Nat) → List Nat → Option Nat
  | places, [last] => if last < Nat.pow 256 places then some last else none
  | places + 1, part :: others =>
    if part < 256 then (quadValue? places others).map fun rest => part * Nat.pow 256 places + rest
    else none
  | _, _ => none

/-- A number of 32 bits as four parts. -/
def quadText (value : Nat) : String :=
  s!"{value / 16777216}.{value / 65536 % 256}.{value / 256 % 256}.{value % 256}"

/-- Reads a host that ends in a number. -/
def quad? (name : List Char) : Option String := do
  let values ← (labels name).mapM quadPart?
  return quadText (← quadValue? 4 values)

/-- A group of a number in brackets: one to four hexadecimal digits. -/
def group? (digits : List Char) : Option Nat :=
  if digits.isEmpty || 4 < digits.length then none else number? 16 digits

/-- A part of the decimal ending of a number in brackets. -/
def decimalPart? (digits : List Char) : Option Nat :=
  if digits.isEmpty || 3 < digits.length || (1 < digits.length && digits.head? == some '0') then
    none
  else (number? 10 digits).filter (· < 256)

/-- The two groups that a decimal ending of four parts spells. -/
def decimalEnding? (text : List Char) : Option (List Nat) := do
  match ← (parts '.' text).mapM decimalPart? with
  | [a, b, c, d] => return [a * 256 + b, c * 256 + d]
  | _ => failure

/-- The groups of a part of a number in brackets, which may have a decimal ending if it is the last
part. -/
def groups? (isLast : Bool) (text : List Char) : Option (List Nat) :=
  if text.isEmpty then some []
  else
    let all := parts ':' text
    let ending := (all.getLast?).getD []
    if isLast && ending.contains '.' then do
      return (← all.dropLast.mapM group?) ++ (← decimalEnding? ending)
    else all.mapM group?

/-- The text before the first pair of colons and the text after it. -/
def splitColons : List Char → Option (List Char × List Char)
  | ':' :: ':' :: rest => some ([], rest)
  | c :: rest => (splitColons rest).map fun (before, after) => (c :: before, after)
  | [] => none

/-- The eight groups of a number in brackets; a pair of colons stands for as many groups of zero as
are missing. -/
def eightGroups? (text : List Char) : Option (List Nat) := do
  match splitColons text with
  | none =>
    let groups ← groups? true text
    if groups.length = 8 then return groups else failure
  | some (before, after) =>
    let front ← groups? false before
    let back ← groups? true after
    let missing := 8 - (front.length + back.length)
    if missing = 0 then failure
    return front ++ List.replicate missing 0 ++ back

/-- The length of the run of zeros at the start of a list. -/
def zeroRun : List Nat → Nat
  | 0 :: rest => zeroRun rest + 1
  | _ => 0

/-- The start and length of the first longest run of zeros. -/
def longestZeros (groups : List Nat) : Nat × Nat :=
  (List.range groups.length).foldl (fun best place =>
    let run := zeroRun (groups.drop place)
    if best.2 < run then (place, run) else best) (0, 0)

def groupText (group : Nat) : String :=
  String.ofList (Nat.toDigits 16 group)

/-- Eight groups as they are written, with the first longest run of zeros left out. -/
def groupsText (groups : List Nat) : String :=
  let (start, run) := longestZeros groups
  let written (part : List Nat) : String := Text.joinWith ":" (part.map groupText)
  if run < 2 then written groups
  else written (groups.take start) ++ "::" ++ written (groups.drop (start + run))

def parse? (text : List Char) : Option String :=
  match text with
  | '[' :: rest =>
    if rest.getLast? == some ']' then
      (eightGroups? rest.dropLast).map fun groups => "[" ++ groupsText groups ++ "]"
    else none
  | _ =>
    let name := (unescape text).map Char.toLower
    if name.isEmpty || !name.all isNameChar then none
    else if endsInNumber name then quad? name
    else some (String.ofList name)

end SigmaCatalog.Rest.Host
