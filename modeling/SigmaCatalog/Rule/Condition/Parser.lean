import SigmaCatalog.Reading
import SigmaCatalog.Rule.Condition
import SigmaCatalog.Text.Blank
import SigmaCatalog.Text.Splitting

/-!
# Reading conditions

The reader descends the grammar

* `or ::= and ("or" and)*`
* `and ::= not ("and" not)*`
* `not ::= "not" not | primary`
* `primary ::= "(" or ")" | ("1" | "any" | "all") "of" ("them" | word) | word`

Every step hands on the tokens it left, together with a proof that it took at least one.
-/

namespace SigmaCatalog.Condition

/-- Why a text is no condition. -/
inductive Malformed where
  | empty
  | unexpected (token : Token)
  | unexpectedEnd
  | missingCloseParen
  /-- A quantifier that is not followed by `of`. -/
  | expectedOf (quantifier : Token)
  | unexpectedAfterOf (token : Token)
  | missingPattern
  deriving DecidableEq, Repr

def Malformed.message : Malformed → String
  | empty => "condition is empty"
  | unexpected token => s!"unexpected '{token.text}'"
  | unexpectedEnd => "unexpected end of condition"
  | missingCloseParen => "missing closing parenthesis"
  | expectedOf quantifier => s!"expected 'of' after '{quantifier.text}'"
  | unexpectedAfterOf token => s!"unexpected '{token.text}' after 'of'"
  | missingPattern => "expected identifier pattern after 'of'"

namespace Parser

/-- The result of a step: a value and the tokens left, or the reason why there is none. -/
abbrev Result (tokens : List Token) (α : Type) : Type :=
  Except Malformed (Reading.Step tokens α)

/-- Reads what may follow `of`. -/
def pattern (node : NamePattern → Expr) : (tokens : List Token) → Result tokens Expr
  | .themWord :: rest => .ok ⟨node .them, rest, by simp⟩
  | .word text :: rest => .ok ⟨node (.glob text), rest, by simp⟩
  | token :: _ => .error (.unexpectedAfterOf token)
  | [] => .error .missingPattern

/-- Reads what follows the word `quantifier`. -/
def quantified (quantifier : Token) (node : NamePattern → Expr) :
    (tokens : List Token) → Result tokens Expr
  | .ofWord :: rest =>
    match pattern node rest with
    | .ok step => .ok (step.widen (by simp))
    | .error problem => .error problem
  | _ => .error (.expectedOf quantifier)

mutual

/-- Reads operands joined by `or`. -/
def disjunction (tokens : List Token) : Result tokens Expr :=
  match conjunction tokens with
  | .error problem => .error problem
  | .ok ⟨first, rest, h⟩ =>
    match moreDisjuncts rest with
    | .error problem => .error problem
    | .ok ⟨(others, last), hl⟩ => .ok ⟨.combine .or first others, last, Nat.lt_of_le_of_lt hl h⟩
  termination_by tokens.length * 6 + 5

/-- Reads the operands that follow further `or`s. -/
def moreDisjuncts (tokens : List Token) :
    Except Malformed { left : List Expr × List Token // left.2.length ≤ tokens.length } :=
  match tokens with
  | .orWord :: rest =>
    match conjunction rest with
    | .error problem => .error problem
    | .ok ⟨next, later, h⟩ =>
      match moreDisjuncts later with
      | .error problem => .error problem
      | .ok ⟨(others, last), hl⟩ =>
        .ok ⟨(next :: others, last), by simp only [List.length_cons]; simp only at hl; omega⟩
  | tokens => .ok ⟨([], tokens), Nat.le_refl _⟩
  termination_by tokens.length * 6 + 4

/-- Reads operands joined by `and`. -/
def conjunction (tokens : List Token) : Result tokens Expr :=
  match negation tokens with
  | .error problem => .error problem
  | .ok ⟨first, rest, h⟩ =>
    match moreConjuncts rest with
    | .error problem => .error problem
    | .ok ⟨(others, last), hl⟩ => .ok ⟨.combine .and first others, last, Nat.lt_of_le_of_lt hl h⟩
  termination_by tokens.length * 6 + 3

/-- Reads the operands that follow further `and`s. -/
def moreConjuncts (tokens : List Token) :
    Except Malformed { left : List Expr × List Token // left.2.length ≤ tokens.length } :=
  match tokens with
  | .andWord :: rest =>
    match negation rest with
    | .error problem => .error problem
    | .ok ⟨next, later, h⟩ =>
      match moreConjuncts later with
      | .error problem => .error problem
      | .ok ⟨(others, last), hl⟩ =>
        .ok ⟨(next :: others, last), by simp only [List.length_cons]; simp only at hl; omega⟩
  | tokens => .ok ⟨([], tokens), Nat.le_refl _⟩
  termination_by tokens.length * 6 + 2

/-- Reads an operand with any number of `not`s before it. -/
def negation (tokens : List Token) : Result tokens Expr :=
  match tokens with
  | .notWord :: rest =>
    match negation rest with
    | .error problem => .error problem
    | .ok ⟨operand, last, h⟩ => .ok ⟨.not operand, last, by simp only [List.length_cons]; omega⟩
  | tokens => primary tokens
  termination_by tokens.length * 6 + 1

/-- Reads a name, a quantifier or a parenthesised expression. -/
def primary (tokens : List Token) : Result tokens Expr :=
  match tokens with
  | .openParen :: rest =>
    match disjunction rest with
    | .error problem => .error problem
    | .ok ⟨inner, .closeParen :: last, h⟩ =>
      .ok ⟨inner, last, by simp only [List.length_cons] at h ⊢; omega⟩
    | .ok _ => .error .missingCloseParen
  | .oneWord :: rest => (quantified .oneWord .oneOf rest).map (·.widen (by simp))
  | .allWord :: rest => (quantified .allWord .allOf rest).map (·.widen (by simp))
  | .word name :: rest => .ok ⟨.identifier name, rest, by simp⟩
  | token :: _ => .error (.unexpected token)
  | [] => .error .unexpectedEnd
  termination_by tokens.length * 6 + 0

end

/-- Reads a whole token list as one expression. -/
def whole (tokens : List Token) : Except Malformed Expr :=
  match disjunction tokens with
  | .error problem => .error problem
  | .ok ⟨expr, [], _⟩ => .ok expr
  | .ok ⟨_, token :: _, _⟩ => .error (.unexpected token)

end Parser

def parse (source : String) : Except Malformed Condition :=
  let (search, aggregation) :=
    match Text.splitFirst '|' source.toList with
    | some (before, after) => (before, some (String.ofList (Text.trimChars after)))
    | none => (source.toList, none)
  match Token.ofText search with
  | [] => .error .empty
  | token :: tokens =>
    match Parser.whole (token :: tokens) with
    | .error problem => .error problem
    | .ok expr => .ok { source := Text.trim source, expr, aggregation }

end SigmaCatalog.Condition
