import SigmaCatalog.Rule.NamePattern
import SigmaCatalog.Text.Blank

/-!
# Conditions

A condition combines search identifiers with `not`, `and` and `or`, where `not` binds tightest and
`or` loosest, and with quantifiers over name patterns.  Text after the first `|` is an aggregation
clause, which is kept as it stands.

This module holds the expression tree, the references an expression makes, and the words a
condition is written in; `SigmaCatalog.Rule.Condition.Parser` reads a condition,
`SigmaCatalog.Rule.Condition.Printer` writes one, and `SigmaCatalog.Rule.Condition.Grammar` says
which words are one.
-/

namespace SigmaCatalog

namespace Condition

inductive Expr where
  | identifier (name : String)
  | not (operand : Expr)
  | and (operands : List Expr)
  | or (operands : List Expr)
  | oneOf (pattern : NamePattern)
  | allOf (pattern : NamePattern)
  deriving Repr

/-- One mention of search identifiers in a condition. -/
inductive Reference where
  | identifier (name : String)
  | selection (pattern : NamePattern)
  deriving DecidableEq, Repr

namespace Expr

/-- One operand stands for itself; several are combined. -/
def combine (node : List Expr → Expr) (first : Expr) : List Expr → Expr
  | [] => first
  | others => node (first :: others)

mutual

/-- The references of an expression, from left to right. -/
def references : Expr → List Reference
  | .identifier name => [.identifier name]
  | .not operand => operand.references
  | .and operands => listReferences operands
  | .or operands => listReferences operands
  | .oneOf pattern => [.selection pattern]
  | .allOf pattern => [.selection pattern]

def listReferences : List Expr → List Reference
  | [] => []
  | operand :: operands => operand.references ++ listReferences operands

end

end Expr

/-- A word or a parenthesis of a condition. -/
inductive Token where
  | openParen
  | closeParen
  | andWord
  | orWord
  | notWord
  | ofWord
  | oneWord
  | allWord
  | themWord
  | word (text : String)
  deriving DecidableEq, Repr

namespace Token

/-- A token as problem reports show it. -/
def text : Token → String
  | openParen => "("
  | closeParen => ")"
  | andWord => "and"
  | orWord => "or"
  | notWord => "not"
  | ofWord => "of"
  | oneWord => "1"
  | allWord => "all"
  | themWord => "them"
  | word text => text

/-- The token a word spells; keywords are recognised whatever the case of their ASCII letters. -/
def spelled (word : List Char) : Token :=
  match String.ofList (word.map Char.toLower) with
  | "and" => andWord
  | "or" => orWord
  | "not" => notWord
  | "of" => ofWord
  | "1" => oneWord
  | "any" => oneWord
  | "all" => allWord
  | "them" => themWord
  | _ => .word (String.ofList word)

/-- The word read so far, last character first, in front of the tokens after it. -/
def consWord (pending : List Char) (tokens : List Token) : List Token :=
  if pending.isEmpty then tokens else spelled pending.reverse :: tokens

/-- The tokens of a text, where `pending` is the word read so far, last character first. -/
def scan (pending : List Char) : List Char → List Token
  | [] => consWord pending []
  | c :: rest =>
    if c = '(' then consWord pending (openParen :: scan [] rest)
    else if c = ')' then consWord pending (closeParen :: scan [] rest)
    else if Text.isBlank c then consWord pending (scan [] rest)
    else scan (c :: pending) rest

/-- The words and parentheses of a text; blanks separate words. -/
def ofText (text : List Char) : List Token :=
  scan [] text

end Token

end Condition

structure Condition where
  /-- The condition as written, without the blanks around it. -/
  source : String
  expr : Condition.Expr
  /-- The text after the first `|`, without the blanks around it. -/
  aggregation : Option String
  deriving Repr

end SigmaCatalog
