import SigmaCatalog.Rule.Condition.Printer

/-!
# Derivations of conditions

The text of a condition is cut into words at blanks and at parentheses, and each word spells a
keyword or stands for itself.

A derivation shows how the grammar of conditions makes some tokens.  It is kept as a tree with one
constructor a rule, so that two derivations of the same tokens can be told apart.  The expression of
a derivation leaves out its parentheses and the levels with one operand.
-/

namespace SigmaCatalog.Condition

/-! ## Words -/

/-- The part of a condition before the first `|`. -/
def searchText (source : String) : List Char :=
  source.toList.takeWhile (· ≠ '|')

namespace Token

/-- The keywords in lower case, each with its token. -/
def keywords : List (String × Token) :=
  [("and", .andWord), ("or", .orWord), ("not", .notWord), ("of", .ofWord), ("1", .oneWord),
    ("any", .oneWord), ("all", .allWord), ("them", .themWord)]

/-- A word spells a keyword, whatever the case of its ASCII letters, or else it stands for
itself. -/
inductive Spells (word : List Char) : Token → Prop
  | keyword {keyword : String} {token : Token} (hkeyword : (keyword, token) ∈ keywords)
    (h : word.map Char.toLower = keyword.toList) : Spells word token
  | plain (h : ∀ entry ∈ keywords, word.map Char.toLower ≠ entry.1.toList) :
    Spells word (.word (String.ofList word))

def IsWordChar (c : Char) : Prop :=
  Text.isBlank c = false ∧ c ≠ '(' ∧ c ≠ ')'

/-- A text that is cut into tokens: a word goes on as far as it can. -/
inductive Lexed : List Char → List Token → Prop
  | nil : Lexed [] []
  | blank {c : Char} {rest : List Char} {tokens : List Token} (h : Text.isBlank c = true) :
    Lexed rest tokens → Lexed (c :: rest) tokens
  | openParen {rest : List Char} {tokens : List Token} :
    Lexed rest tokens → Lexed ('(' :: rest) (.openParen :: tokens)
  | closeParen {rest : List Char} {tokens : List Token} :
    Lexed rest tokens → Lexed (')' :: rest) (.closeParen :: tokens)
  | word {word rest : List Char} {token : Token} {tokens : List Token} (hne : word ≠ [])
    (hword : ∀ c ∈ word, IsWordChar c) (hend : ∀ c ∈ rest.head?, ¬ IsWordChar c)
    (htoken : Spells word token) : Lexed rest tokens → Lexed (word ++ rest) (token :: tokens)

end Token

/-! ## Trees -/

namespace Derivation

mutual

/-- Operands joined by `or`. -/
inductive Disjunction where
  | intro (first : Conjunction) (others : MoreDisjuncts)

/-- The operands after the first, each behind its `or`. -/
inductive MoreDisjuncts where
  | nil
  | cons (next : Conjunction) (others : MoreDisjuncts)

/-- Operands joined by `and`. -/
inductive Conjunction where
  | intro (first : Negation) (others : MoreConjuncts)

/-- The operands after the first, each behind its `and`. -/
inductive MoreConjuncts where
  | nil
  | cons (next : Negation) (others : MoreConjuncts)

/-- An operand with any number of `not`s before it. -/
inductive Negation where
  | not (operand : Negation)
  | primary (operand : Primary)

/-- A name, a quantifier or an expression in parentheses. -/
inductive Primary where
  | parenthesised (inner : Disjunction)
  | oneOf (pattern : NamePattern)
  | allOf (pattern : NamePattern)
  | word (name : String)

end

mutual

/-- The tokens that a derivation makes. -/
def Disjunction.tokens : Disjunction → List Token
  | .intro first others => first.tokens ++ others.tokens

def MoreDisjuncts.tokens : MoreDisjuncts → List Token
  | .nil => []
  | .cons next others => .orWord :: (next.tokens ++ others.tokens)

def Conjunction.tokens : Conjunction → List Token
  | .intro first others => first.tokens ++ others.tokens

def MoreConjuncts.tokens : MoreConjuncts → List Token
  | .nil => []
  | .cons next others => .andWord :: (next.tokens ++ others.tokens)

def Negation.tokens : Negation → List Token
  | .not operand => .notWord :: operand.tokens
  | .primary operand => operand.tokens

def Primary.tokens : Primary → List Token
  | .parenthesised inner => .openParen :: (inner.tokens ++ [.closeParen])
  | .oneOf pattern => [.oneWord, .ofWord, patternToken pattern]
  | .allOf pattern => [.allWord, .ofWord, patternToken pattern]
  | .word name => [.word name]

end

mutual

/-- The expression of a derivation. -/
def Disjunction.expr : Disjunction → Expr
  | .intro first others => .combine .or first.expr others.exprs

def MoreDisjuncts.exprs : MoreDisjuncts → List Expr
  | .nil => []
  | .cons next others => next.expr :: others.exprs

def Conjunction.expr : Conjunction → Expr
  | .intro first others => .combine .and first.expr others.exprs

def MoreConjuncts.exprs : MoreConjuncts → List Expr
  | .nil => []
  | .cons next others => next.expr :: others.exprs

def Negation.expr : Negation → Expr
  | .not operand => .not operand.expr
  | .primary operand => operand.expr

def Primary.expr : Primary → Expr
  | .parenthesised inner => inner.expr
  | .oneOf pattern => .oneOf pattern
  | .allOf pattern => .allOf pattern
  | .word name => .identifier name

end

end Derivation

end SigmaCatalog.Condition
