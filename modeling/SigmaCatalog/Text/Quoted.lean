import SigmaCatalog.Text.Visible

/-!
# Texts in diagnostics

Diagnostics show a text between double quotes, with a backslash before a double quote or another
backslash, letters for the common control characters, and the code point in braces for every other
character that has no visible form or joins the one before it.
-/

namespace SigmaCatalog.Text

/-- The code point of a character as an escape. -/
def codeEscape (c : Char) : List Char :=
  ['\\', 'u', '\x7b'] ++ Nat.toDigits 16 c.toNat ++ ['\x7d']

/-- A character inside a quoted text. -/
def quotedChar (c : Char) : List Char :=
  if c = '\x00' then ['\\', '0']
  else if c = '\t' then ['\\', 't']
  else if c = '\r' then ['\\', 'r']
  else if c = '\n' then ['\\', 'n']
  else if c = '\\' || c = '"' then ['\\', c]
  else if 0x20 ≤ c.toNat && c.toNat < 0x7F then [c]
  else if isJoining c || isInvisible c then codeEscape c
  else [c]

/-- A text as diagnostics show it. -/
def quoted (text : String) : String :=
  "\"" ++ String.ofList (text.toList.flatMap quotedChar) ++ "\""

end SigmaCatalog.Text
