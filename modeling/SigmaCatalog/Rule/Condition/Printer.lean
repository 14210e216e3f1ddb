import SigmaCatalog.Rule.Condition
import SigmaCatalog.Text.Splitting

/-!
# Writing conditions

An expression is written with parentheses around every operand that has operands of its own, and
with blanks between all words.  `Expr.IsWritable` holds of the expressions that can be read back
from what is written.
-/

namespace SigmaCatalog.Condition

/-- The word that spells a name pattern after `of`. -/
def patternToken : NamePattern → Token
  | .them => .themWord
  | .glob text => .word text

/-- Whether a text is a single word of a condition, and no keyword. -/
def Token.IsPlainWord (text : String) : Prop :=
  Token.ofText text.toList = [.word text] ∧ '|' ∉ text.toList

namespace Expr

/-- Whether an expression has operands. -/
def isCompound : Expr → Bool
  | .not _ => true
  | .and _ => true
  | .or _ => true
  | _ => false

/-- The tokens of an operand, in parentheses if it has operands of its own. -/
def enclosed (operand : Expr) (tokens : List Token) : List Token :=
  if operand.isCompound then .openParen :: (tokens ++ [.closeParen]) else tokens

/-- Tokens of operands with a separator between neighbours. -/
def separated (separator : Token) : List (List Token) → List Token
  | [] => []
  | [tokens] => tokens
  | tokens :: others => tokens ++ separator :: separated separator others

mutual

/-- The tokens that an expression is written in. -/
def tokens : Expr → List Token
  | .identifier name => [.word name]
  | .not operand => .notWord :: operand.enclosed operand.tokens
  | .and operands => separated .andWord (operandTokens operands)
  | .or operands => separated .orWord (operandTokens operands)
  | .oneOf pattern => [.oneWord, .ofWord, patternToken pattern]
  | .allOf pattern => [.allWord, .ofWord, patternToken pattern]

def operandTokens : List Expr → List (List Token)
  | [] => []
  | operand :: operands => operand.enclosed operand.tokens :: operandTokens operands

end

def text (expr : Expr) : String :=
  Text.joinWith " " (expr.tokens.map Token.text)

/-- Whether the words of a pattern can be read back. -/
def IsWritablePattern : NamePattern → Prop
  | .them => True
  | .glob text => Token.IsPlainWord text

mutual

/-- Whether every `and` and `or` has at least two operands and every name is a plain word. -/
def IsWritable : Expr → Prop
  | .identifier name => Token.IsPlainWord name
  | .not operand => operand.IsWritable
  | .and operands => 2 ≤ operands.length ∧ AreWritable operands
  | .or operands => 2 ≤ operands.length ∧ AreWritable operands
  | .oneOf pattern => IsWritablePattern pattern
  | .allOf pattern => IsWritablePattern pattern

def AreWritable : List Expr → Prop
  | [] => True
  | operand :: operands => operand.IsWritable ∧ AreWritable operands

end

end Expr

end SigmaCatalog.Condition
