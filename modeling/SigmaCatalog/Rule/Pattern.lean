/-!
# Text patterns

A string value of a rule is a pattern: an unescaped `*` stands for any text, an unescaped `?` for
any one character, and a backslash before `*`, `?` or another backslash makes that character
literal.  Any other backslash is literal itself.
-/

namespace SigmaCatalog

inductive Piece where
  | literal (text : String)
  /-- Any text, possibly empty. -/
  | anyText
  /-- Any one character. -/
  | anyChar
  deriving DecidableEq, Repr

namespace Piece

def isWild : Piece → Bool
  | literal _ => false
  | anyText => true
  | anyChar => true

/-- A literal piece in front of others, unless its text is empty. -/
def consLiteral (text : List Char) (pieces : List Piece) : List Piece :=
  if text.isEmpty then pieces else literal (String.ofList text) :: pieces

/-- Whether a backslash takes away the special meaning of the character. -/
def isSpecial (c : Char) : Bool :=
  c == '*' || c == '?' || c == '\\'

/-- The pieces of a text, where `pending` is the literal text read so far, last character first. -/
def scan (pending : List Char) : List Char → List Piece
  | [] => consLiteral pending.reverse []
  | '\\' :: c :: rest =>
    if isSpecial c then scan (c :: pending) rest else scan ('\\' :: pending) (c :: rest)
  | '*' :: rest => consLiteral pending.reverse (anyText :: scan [] rest)
  | '?' :: rest => consLiteral pending.reverse (anyChar :: scan [] rest)
  | c :: rest => scan (c :: pending) rest
  termination_by structural text => text

/-- A character of a literal text, with a backslash before it if it has a meaning of its own. -/
def escapeChar (c : Char) : List Char :=
  if isSpecial c then ['\\', c] else [c]

/-- A piece as it can be written in a rule. -/
def spelling : Piece → List Char
  | literal text => text.toList.flatMap escapeChar
  | anyText => ['*']
  | anyChar => ['?']

/-- Whether no piece is an empty literal and no literal stands next to another. -/
def IsNormal : List Piece → Prop
  | [] => True
  | literal _ :: literal _ :: _ => False
  | literal text :: pieces => text ≠ "" ∧ IsNormal pieces
  | _ :: pieces => IsNormal pieces

end Piece

/-- A string value of a rule: the text as written and its pieces. -/
structure Pattern where
  /-- The value as written, which regular expressions and address blocks use. -/
  source : String
  /-- The literal runs and wildcards in order. -/
  pieces : List Piece
  deriving DecidableEq, Repr

namespace Pattern

def ofText (text : String) : Pattern :=
  { source := text, pieces := Piece.scan [] text.toList }

/-- The text that spells some pieces. -/
def spell (pieces : List Piece) : String :=
  String.ofList (pieces.flatMap Piece.spelling)

def hasWildcard (pattern : Pattern) : Bool :=
  pattern.pieces.any Piece.isWild

end Pattern

end SigmaCatalog
