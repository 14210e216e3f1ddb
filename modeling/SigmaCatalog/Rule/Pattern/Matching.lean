import SigmaCatalog.Rule.Pattern

/-!
# What a pattern matches

A pattern matches a text that can be cut into one part for each of its pieces: a literal takes
itself, `anyText` takes any part, and `anyChar` takes one character.  What a value matches can also
be said of its characters as they are written, without taking them for pieces first.
-/

namespace SigmaCatalog

namespace Piece

/-- A text that pieces match as a whole. -/
inductive Matches : List Piece → List Char → Prop
  | nil : Matches [] []
  | literal {text : String} {pieces : List Piece} {rest : List Char} :
    Matches pieces rest → Matches (.literal text :: pieces) (text.toList ++ rest)
  | anyText {pieces : List Piece} {rest : List Char} (part : List Char) :
    Matches pieces rest → Matches (.anyText :: pieces) (part ++ rest)
  | anyChar {pieces : List Piece} {rest : List Char} (c : Char) :
    Matches pieces rest → Matches (.anyChar :: pieces) (c :: rest)

end Piece

namespace Pattern

/-- A text that a value matches as a whole, by the characters of the value as written.  A backslash
takes away the meaning of a star, a question mark or a backslash after it; before anything else it
stands for itself. -/
inductive WrittenMatches : (written text : List Char) → Prop
  | nil : WrittenMatches [] []
  | anyText {written rest : List Char} (part : List Char) :
    WrittenMatches written rest → WrittenMatches ('*' :: written) (part ++ rest)
  | anyChar {written rest : List Char} (c : Char) :
    WrittenMatches written rest → WrittenMatches ('?' :: written) (c :: rest)
  | escaped {c : Char} {written rest : List Char} (hspecial : c ∈ ['*', '?', '\\']) :
    WrittenMatches written rest → WrittenMatches ('\\' :: c :: written) (c :: rest)
  | backslash {written rest : List Char} (hplain : ∀ c ∈ written.head?, c ∉ ['*', '?', '\\']) :
    WrittenMatches written rest → WrittenMatches ('\\' :: written) ('\\' :: rest)
  | plain {c : Char} {written rest : List Char} (hplain : c ∉ ['*', '?', '\\']) :
    WrittenMatches written rest → WrittenMatches (c :: written) (c :: rest)

def Matches (pattern : Pattern) (text : List Char) : Prop :=
  Piece.Matches pattern.pieces text

end Pattern

end SigmaCatalog
