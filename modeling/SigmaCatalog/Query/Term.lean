import SigmaCatalog.Decimal.Notation
import SigmaCatalog.Query.Escape
import SigmaCatalog.Rule.Detection

/-!
# Terms and leaves of a query

A leaf is a test that a query string makes by itself: that a field exists, that a field fits a
term, or that a term occurs anywhere in an event.
-/

namespace SigmaCatalog.Query

inductive Comparison where
  | equal
  | less
  | lessOrEqual
  | greater
  | greaterOrEqual
  deriving DecidableEq, Repr

/-- The sign of a comparison in front of the number. -/
def Comparison.sign : Comparison → String
  | equal => ""
  | less => "<"
  | lessOrEqual => "<="
  | greater => ">"
  | greaterOrEqual => ">="

/-- What a field or an event is tested for. -/
inductive Term where
  /-- A text with wildcards. -/
  | pieces (parts : List Piece)
  /-- A text as it stands. -/
  | phrase (text : String)
  | regex (text : String)
  /-- A number by its text. -/
  | number (comparison : Comparison) (text : String)
  | truth (value : Bool)
  deriving DecidableEq, Repr

def pieceText : Piece → String
  | .literal text => termText text
  | .anyText => "*"
  | .anyChar => "?"

/-- The literal text of a piece; a wildcard has none. -/
def literalText : Piece → String
  | .literal text => text
  | .anyText => ""
  | .anyChar => ""

/-- A text with wildcards: a phrase, unless it has a wildcard. -/
def piecesText (pieces : List Piece) : String :=
  if pieces.any Piece.isWild then String.join (pieces.map pieceText)
  else phraseText (String.join (pieces.map literalText))

def truthText : Bool → String
  | true => "true"
  | false => "false"

def Term.text : Term → String
  | pieces parts => piecesText parts
  | phrase text => phraseText text
  | regex text => regexText text
  | number comparison text => comparison.sign ++ termText text
  | truth value => truthText value

/-- A test that a query makes by itself. -/
inductive Leaf where
  /-- The event has the field. -/
  | exists (name : String)
  /-- The field fits the term. -/
  | field (name : String) (term : Term)
  /-- The term occurs in the event. -/
  | anywhere (term : Term)
  deriving DecidableEq, Repr

def Leaf.text : Leaf → String
  | .exists name => "_exists_:" ++ termText name
  | .field name term => termText name ++ ":" ++ term.text
  | .anywhere term => term.text

end SigmaCatalog.Query
