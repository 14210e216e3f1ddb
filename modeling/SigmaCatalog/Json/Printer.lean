import SigmaCatalog.Decimal.Notation
import SigmaCatalog.Json.Basic
import SigmaCatalog.Text.Splitting

/-!
# The compact text of a JSON value

Members and elements are separated by bare commas, and only the characters that JSON forbids in a
string are escaped.
-/

namespace SigmaCatalog.Json

def hexDigit (n : Nat) : Char :=
  if n < 10 then Char.ofNat (48 + n) else Char.ofNat (87 + n)

/-- A character inside a quoted string. -/
def escapeChar (c : Char) : List Char :=
  if c = '"' then ['\\', '"']
  else if c = '\\' then ['\\', '\\']
  else if 0x20 ≤ c.toNat then [c]
  else match c.toNat with
    | 8 => ['\\', 'b']
    | 9 => ['\\', 't']
    | 10 => ['\\', 'n']
    | 12 => ['\\', 'f']
    | 13 => ['\\', 'r']
    | n => ['\\', 'u', '0', '0', hexDigit (n / 16), hexDigit (n % 16)]

def quoted (text : String) : String :=
  "\"" ++ String.ofList (text.toList.flatMap escapeChar) ++ "\""

/-- A number; what is not finite has no text of its own. -/
def Number.text : Number → String
  | .integer n => toString n
  | .real (.finite negative significand exponent) =>
    Binary64.markedText negative significand exponent
  | .real _ => "null"

mutual

/-- The compact text of a value. -/
def text : Json → String
  | null => "null"
  | bool true => "true"
  | bool false => "false"
  | number n => n.text
  | string s => quoted s
  | array elements => "[" ++ Text.joinWith "," (elementTexts elements) ++ "]"
  | members entries => "\x7b" ++ Text.joinWith "," (entryTexts entries) ++ "\x7d"

def elementTexts : List Json → List String
  | [] => []
  | element :: elements => element.text :: elementTexts elements

def entryTexts : List (String × Json) → List String
  | [] => []
  | (name, value) :: entries => (quoted name ++ ":" ++ value.text) :: entryTexts entries

end

end SigmaCatalog.Json
