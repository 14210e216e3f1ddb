import SigmaCatalog.Query.Clause

/-!
# What a query selects

A search service sorts the operands of a group into three kinds.  An operand after `NOT` is
prohibited; any other is required in a group joined by `AND` and optional in a group joined by `OR`.
A document is selected by a group when every required operand selects it, no prohibited operand
does, and, where there are optional operands but no required ones, some optional operand does.  A
negated query selects every document that its operand does not.

This agrees with `Clause.holds` on groups joined by `AND`, but not on groups joined by `OR` that
have a negated operand.
-/

namespace SigmaCatalog.Query.Clause

variable {α : Type}

/-- Whether a clause is an operand after `NOT`. -/
def isProhibited : Clause α → Bool
  | .not _ => true
  | _ => false

mutual

/-- Whether a query selects a document on which its leaves have the given values. -/
def selects (truth : α → Bool) : Clause α → Bool
  | .leaf test => truth test
  | .not operand => !operand.selects truth
  | .group .all operands => allSelect truth operands
  | .group .any operands =>
    noneForbids truth operands && (operands.all isProhibited || someSelects truth operands)

/-- Whether every required operand selects a document and no prohibited operand does. -/
def allSelect (truth : α → Bool) : List (Clause α) → Bool
  | [] => true
  | operand :: operands => operand.selects truth && allSelect truth operands

/-- Whether no prohibited operand selects a document. -/
def noneForbids (truth : α → Bool) : List (Clause α) → Bool
  | [] => true
  | .not operand :: operands => !operand.selects truth && noneForbids truth operands
  | _ :: operands => noneForbids truth operands

/-- Whether some optional operand selects a document. -/
def someSelects (truth : α → Bool) : List (Clause α) → Bool
  | [] => false
  | .not _ :: operands => someSelects truth operands
  | operand :: operands => operand.selects truth || someSelects truth operands

end

end SigmaCatalog.Query.Clause
