import SigmaCatalog.Yaml.Problem
import SigmaCatalog.Yaml.Spot

/-!
# Plain and quoted scalars

Both kinds of scalar fold the blanks inside them: spaces within a line stay, one line break becomes
a space, and of several line breaks all but the first stay.  A Unicode line or paragraph separator
is kept instead of folded.
-/

namespace SigmaCatalog.Yaml

/-- A scalar being read: its text so far and the blanks that follow it.  All lists hold their last
character first. -/
structure Folding where
  text : List Char := []
  /-- Spaces since the text, as long as no line has ended. -/
  spaces : List Char := []
  /-- The first line break since the text. -/
  firstBreak : Option Char := none
  /-- The line breaks after the first. -/
  moreBreaks : List Char := []
  /-- Whether a line has ended since the text. -/
  broken : Bool := false

namespace Folding

/-- Adds a space or a tab; at the start of a line it does not count. -/
def addSpace (folding : Folding) (c : Char) : Folding :=
  if folding.broken then folding else { folding with spaces := c :: folding.spaces }

def addBreak (folding : Folding) (c : Char) : Folding :=
  if folding.broken then { folding with moreBreaks := c :: folding.moreBreaks }
  else { folding with spaces := [], firstBreak := some c, broken := true }

/-- What the blanks since the text stand for, last character first. -/
def gap (folding : Folding) : List Char :=
  if folding.broken then
    match folding.firstBreak with
    | some '\n' => if folding.moreBreaks.isEmpty then [' '] else folding.moreBreaks
    | some c => folding.moreBreaks ++ [c]
    | none => folding.moreBreaks
  else folding.spaces

/-- Makes the blanks since the text part of it. -/
def join (folding : Folding) : Folding :=
  { text := folding.gap ++ folding.text }

def push (folding : Folding) (c : Char) : Folding :=
  { folding with text := c :: folding.text }

def result (folding : Folding) : String :=
  String.ofList folding.text.reverse

/-- Whether blanks follow the text read so far. -/
def inGap (folding : Folding) : Bool :=
  folding.broken || !folding.spaces.isEmpty

end Folding

namespace Scalar

/-- A plain scalar, the spots after it, and whether a line ended before them. -/
structure Plain where
  text : String
  rest : List Spot
  broken : Bool

/-- Whether `:` before this character inside a flow collection is an error. -/
def clashesWithColon (c : Char) : Bool :=
  c == ',' || c == '?' || c == '[' || c == ']' || c == '\x7b' || c == '\x7d'

/-- Whether a character ends a plain scalar inside a flow collection. -/
def isFlowIndicator (c : Char) : Bool :=
  c == ',' || c == '[' || c == ']' || c == '\x7b' || c == '\x7d'

/-- Reads a plain scalar, whose continuation lines have at least `indent` columns before them
outside flow collections. -/
def plain (inFlow : Bool) (indent : Nat) (folding : Folding) :
    List Spot → Except Problem Plain
  | [] => .ok { text := folding.result, rest := [], broken := folding.broken }
  | spot :: rest =>
    let c := spot.char
    let stop : Except Problem Plain :=
      .ok { text := folding.result, rest := spot :: rest, broken := folding.broken }
    if isSpace c then
      if folding.broken && spot.column < indent && c == '\t' then .error .tabIndentation
      else plain inFlow indent (folding.addSpace c) rest
    else if isBreak c then plain inFlow indent (folding.addBreak c) rest
    else if isEnd c then stop
    else if folding.inGap && ((!inFlow && spot.column < indent) || c == '#') then stop
    else if isDocumentMarker (spot :: rest) then stop
    else if inFlow && c == ':' && clashesWithColon (firstChar rest) then .error .misplacedIndicator
    else if c == ':' && isGap (firstChar rest) then stop
    else if inFlow && isFlowIndicator c then stop
    else plain inFlow indent (folding.join.push c) rest

/-- What the next character of a quoted scalar is. -/
inductive QuoteMode where
  /-- A character of the text, or the closing quote. -/
  | text
  /-- The character after a single quote, which it may double. -/
  | afterQuote
  /-- The character after a backslash. -/
  | escape
  /-- A hexadecimal digit of an escape, of which `left + 1` are to come. -/
  | hex (left value : Nat)

/-- The character a one-letter escape stands for. -/
def escaped? : Char → Option Char
  | '0' => some '\x00'
  | 'a' => some '\x07'
  | 'b' => some '\x08'
  | 't' | '\t' => some '\t'
  | 'n' => some '\n'
  | 'v' => some '\x0b'
  | 'f' => some '\x0c'
  | 'r' => some '\r'
  | 'e' => some '\x1b'
  | ' ' => some ' '
  | '"' => some '"'
  | '/' => some '/'
  | '\\' => some '\\'
  | 'N' => some '\x85'
  | '_' => some '\xa0'
  | 'L' => some '\u2028'
  | 'P' => some '\u2029'
  | _ => none

/-- How many hexadecimal digits follow the letter of a numeric escape. -/
def escapeLength? : Char → Option Nat
  | 'x' => some 2
  | 'u' => some 4
  | 'U' => some 8
  | _ => none

def hexValue? (c : Char) : Option Nat :=
  if '0' ≤ c && c ≤ '9' then some (c.toNat - 48)
  else if 'a' ≤ c && c ≤ 'f' then some (c.toNat - 87)
  else if 'A' ≤ c && c ≤ 'F' then some (c.toNat - 55)
  else none

/-- The character with a number; there is none for surrogates and beyond the last. -/
def charOf? (n : Nat) : Option Char :=
  if n.isValidChar then some (Char.ofNat n) else none

/-- Reads a quoted scalar from the character after its opening quote; yields its text and the spots
after its closing quote. -/
def quoted (single : Bool) (mode : QuoteMode) (folding : Folding) :
    List Spot → Except Problem (String × List Spot)
  | [] =>
    match mode with
    | .afterQuote => .ok (folding.result, [])
    | _ => .error .openQuote
  | spot :: rest =>
    let c := spot.char
    match mode with
    | .text =>
      if isEnd c then .error .openQuote
      else if isSpace c then quoted single .text (folding.addSpace c) rest
      else if isBreak c then quoted single .text (folding.addBreak c) rest
      else if isDocumentMarker (spot :: rest) then .error .openQuote
      else
        let folding := folding.join
        if single then
          if c == '\'' then quoted single .afterQuote folding rest
          else quoted single .text (folding.push c) rest
        else if c == '"' then .ok (folding.result, rest)
        else if c == '\\' then quoted single .escape folding rest
        else quoted single .text (folding.push c) rest
    | .afterQuote =>
      if c == '\'' then quoted single .text (folding.push c) rest
      else .ok (folding.result, spot :: rest)
    | .escape =>
      if isBreak c then quoted single .text { folding with broken := true } rest
      else match escaped? c, escapeLength? c with
        | some plain, _ => quoted single .text (folding.push plain) rest
        | none, some length => quoted single (.hex (length - 1) 0) folding rest
        | none, none => .error .badEscape
    | .hex left value =>
      match hexValue? c with
      | none => .error .badEscape
      | some digit =>
        let value := value * 16 + digit
        match left with
        | left + 1 => quoted single (.hex left value) folding rest
        | 0 =>
          match charOf? value with
          | none => .error .badEscape
          | some c => quoted single .text (folding.push c) rest

end Scalar

end SigmaCatalog.Yaml
