import SigmaCatalog.Rule.Condition

/-!
# The grammar of conditions

A list of words and parentheses spells an expression when the grammar

* `disjunction ::= conjunction ("or" conjunction)*`
* `conjunction ::= negation ("and" negation)*`
* `negation    ::= "not" negation | primary`
* `primary     ::= "(" disjunction ")" | ("1" | "any" | "all") "of" ("them" | word) | word`

derives it.  Each rule of the grammar is one constructor, and the expression is the tree of the
derivation, in which one operand stands for itself.
-/

namespace SigmaCatalog.Condition.Grammar

/-- A word that may follow `of`, with the name pattern it spells. -/
inductive Selection : Token → NamePattern → Prop
  | them : Selection .themWord .them
  | glob (text : String) : Selection (.word text) (.glob text)

mutual

/-- Tokens that spell operands joined by `or`. -/
inductive Disjunction : List Token → Expr → Prop
  | intro {tokens later : List Token} {first : Expr} {others : List Expr} :
    Conjunction tokens first → MoreDisjuncts later others →
      Disjunction (tokens ++ later) (.combine .or first others)

/-- Tokens that spell the operands after the first, each behind its `or`. -/
inductive MoreDisjuncts : List Token → List Expr → Prop
  | nil : MoreDisjuncts [] []
  | cons {tokens later : List Token} {next : Expr} {others : List Expr} :
    Conjunction tokens next → MoreDisjuncts later others →
      MoreDisjuncts (.orWord :: (tokens ++ later)) (next :: others)

/-- Tokens that spell operands joined by `and`. -/
inductive Conjunction : List Token → Expr → Prop
  | intro {tokens later : List Token} {first : Expr} {others : List Expr} :
    Negation tokens first → MoreConjuncts later others →
      Conjunction (tokens ++ later) (.combine .and first others)

/-- Tokens that spell the operands after the first, each behind its `and`. -/
inductive MoreConjuncts : List Token → List Expr → Prop
  | nil : MoreConjuncts [] []
  | cons {tokens later : List Token} {next : Expr} {others : List Expr} :
    Negation tokens next → MoreConjuncts later others →
      MoreConjuncts (.andWord :: (tokens ++ later)) (next :: others)

/-- Tokens that spell an operand with any number of `not`s before it. -/
inductive Negation : List Token → Expr → Prop
  | not {tokens : List Token} {operand : Expr} :
    Negation tokens operand → Negation (.notWord :: tokens) (.not operand)
  | primary {tokens : List Token} {operand : Expr} :
    Primary tokens operand → Negation tokens operand

/-- Tokens that spell a name, a quantifier or an expression in parentheses. -/
inductive Primary : List Token → Expr → Prop
  | parenthesised {tokens : List Token} {inner : Expr} :
    Disjunction tokens inner → Primary (.openParen :: (tokens ++ [.closeParen])) inner
  | oneOf {token : Token} {pattern : NamePattern} :
    Selection token pattern → Primary [.oneWord, .ofWord, token] (.oneOf pattern)
  | allOf {token : Token} {pattern : NamePattern} :
    Selection token pattern → Primary [.allWord, .ofWord, token] (.allOf pattern)
  | word (name : String) : Primary [.word name] (.identifier name)

end

end SigmaCatalog.Condition.Grammar
