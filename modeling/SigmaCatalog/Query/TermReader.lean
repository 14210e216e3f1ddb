import SigmaCatalog.Query.Escape
import SigmaCatalog.Rule.Pattern

/-!
# Reading leaves

A leaf is a field name, the first colon that no backslash stands before, and a term.  Here the parts
are read back: a bare text loses its backslashes, a phrase loses its quotes and backslashes, and in
a bare term the stars and question marks that no backslash stands before are wildcards.

A regular expression between slashes is read as units: a character, or a backslash with the
character after it.
-/

namespace SigmaCatalog.Query

/-- The text before the first colon that no backslash stands before, and the text after it. -/
def splitField? : List Char → Option (List Char × List Char)
  | [] => none
  | ['\\'] => none
  | '\\' :: c :: rest =>
    (splitField? rest).map fun (field, term) => ('\\' :: c :: field, term)
  | ':' :: rest => some ([], rest)
  | c :: rest => (splitField? rest).map fun (field, term) => (c :: field, term)

/-- The text without its backslashes, each of which keeps the character after it. -/
def unescaped? : List Char → Option (List Char)
  | [] => some []
  | ['\\'] => none
  | '\\' :: c :: rest => (unescaped? rest).map (c :: ·)
  | c :: rest => (unescaped? rest).map (c :: ·)

/-- The text of a phrase after its opening quote. -/
def phraseEnd? : List Char → Option (List Char)
  | [] => none
  | ['"'] => some []
  | ['\\'] => none
  | '\\' :: c :: rest => (phraseEnd? rest).map (c :: ·)
  | '"' :: _ => none
  | c :: rest => (phraseEnd? rest).map (c :: ·)

/-- The pieces of a bare term, where `pending` is the literal text read so far, last character
first. -/
def barePieces? (pending : List Char) : List Char → Option (List Piece)
  | [] => some (Piece.consLiteral pending.reverse [])
  | ['\\'] => none
  | '\\' :: c :: rest => barePieces? (c :: pending) rest
  | '*' :: rest =>
    (barePieces? [] rest).map fun later => Piece.consLiteral pending.reverse (.anyText :: later)
  | '?' :: rest =>
    (barePieces? [] rest).map fun later => Piece.consLiteral pending.reverse (.anyChar :: later)
  | c :: rest => barePieces? (c :: pending) rest

/-- The pieces of a term that is a phrase or a bare term. -/
def termPieces? : List Char → Option (List Piece)
  | '"' :: rest => (phraseEnd? rest).map fun text => Piece.consLiteral text []
  | term => barePieces? [] term

/-- The name of the field and the pieces of the term of a leaf. -/
def readLeaf? (leaf : String) : Option (String × List Piece) := do
  let (field, term) ← splitField? leaf.toList
  return (String.ofList (← unescaped? field), ← termPieces? term)

/-- A unit of a regular expression. -/
inductive RegexUnit where
  | plain (char : Char)
  /-- A character after a backslash. -/
  | escaped (char : Char)
  /-- A backslash at the end of the text. -/
  | openEscape
  deriving DecidableEq, Repr

namespace RegexUnit

def ofText : List Char → List RegexUnit
  | [] => []
  | ['\\'] => [openEscape]
  | '\\' :: c :: rest => escaped c :: ofText rest
  | c :: rest => plain c :: ofText rest

/-- A unit without the backslash before a slash. -/
def bareSlash : RegexUnit → RegexUnit
  | escaped '/' => plain '/'
  | unit => unit

end RegexUnit

/-- The text before the first slash that no backslash stands before, and the text after it. -/
def splitSlash? : List Char → Option (List Char × List Char)
  | [] => none
  | ['\\'] => none
  | '\\' :: c :: rest => (splitSlash? rest).map fun (body, after) => ('\\' :: c :: body, after)
  | '/' :: rest => some ([], rest)
  | c :: rest => (splitSlash? rest).map fun (body, after) => (c :: body, after)

/-- The body of a regular expression between slashes, if the slash at its end is the first one after
its start that no backslash stands before. -/
def regexBody? (text : String) : Option (List Char) :=
  match text.toList with
  | '/' :: rest =>
    match splitSlash? rest with
    | some (body, []) => some body
    | _ => none
  | _ => none

end SigmaCatalog.Query
