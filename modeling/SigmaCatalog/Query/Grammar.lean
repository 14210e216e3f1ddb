import SigmaCatalog.Query.Clause

/-!
# The grammar of clauses

A search service takes a query string, leaves aside, when it is a sentence of the grammar

* `clause  ::= "NOT" primary | primary`
* `primary ::= leaf | "(" clause ("AND" clause)+ ")" | "(" clause ("OR" clause)+ ")"`

so a clause has at most one `NOT` in front of it and a group has at least two operands.
-/

namespace SigmaCatalog.Query.Clause

variable {α : Type}

mutual

/-- Whether a clause is a `clause` of the grammar. -/
def IsSentence : Clause α → Prop
  | .not operand => operand.IsPrimary
  | .leaf _ => True
  | .group _ operands => 2 ≤ operands.length ∧ AreSentences operands

/-- Whether a clause is a `primary` of the grammar. -/
def IsPrimary : Clause α → Prop
  | .not _ => False
  | .leaf _ => True
  | .group _ operands => 2 ≤ operands.length ∧ AreSentences operands

def AreSentences : List (Clause α) → Prop
  | [] => True
  | clause :: clauses => clause.IsSentence ∧ AreSentences clauses

end

end SigmaCatalog.Query.Clause
