import SigmaCatalog.Query.Term
import SigmaCatalog.Text.Splitting

/-!
# Clauses

A clause is a leaf, a negated clause, or a group of clauses in parentheses that all or any of them
must match.
-/

namespace SigmaCatalog.Query

/-- What joins the clauses of a group. -/
inductive Joint where
  /-- Every clause must match. -/
  | all
  /-- Some clause must match. -/
  | any
  deriving DecidableEq, Repr

def Joint.operator : Joint → String
  | all => "AND"
  | any => "OR"

/-- A query over leaves of type `α`. -/
inductive Clause (α : Type) where
  | leaf (test : α)
  | not (operand : Clause α)
  | group (joint : Joint) (operands : List (Clause α))
  deriving Repr

namespace Clause

variable {α β : Type}

/-- Clauses joined into one: a single clause stands alone, any other number makes a group. -/
def join (joint : Joint) : List (Clause α) → Clause α
  | [clause] => clause
  | clauses => group joint clauses

mutual

def map (f : α → β) : Clause α → Clause β
  | .leaf test => .leaf (f test)
  | .not operand => .not (operand.map f)
  | .group joint operands => .group joint (mapAll f operands)

def mapAll (f : α → β) : List (Clause α) → List (Clause β)
  | [] => []
  | clause :: clauses => clause.map f :: mapAll f clauses

end

mutual

/-- A clause as it is written in a query string. -/
def text (leafText : α → String) : Clause α → String
  | .leaf test => leafText test
  | .not operand => "NOT " ++ operand.text leafText
  | .group joint operands =>
    "(" ++ Text.joinWith (" " ++ joint.operator ++ " ") (texts leafText operands) ++ ")"

def texts (leafText : α → String) : List (Clause α) → List String
  | [] => []
  | clause :: clauses => clause.text leafText :: texts leafText clauses

end

mutual

/-- The value of a clause when its leaves have the given values. -/
def holds (truth : α → Bool) : Clause α → Bool
  | .leaf test => truth test
  | .not operand => !operand.holds truth
  | .group .all operands => allHold truth operands
  | .group .any operands => anyHolds truth operands

def allHold (truth : α → Bool) : List (Clause α) → Bool
  | [] => true
  | clause :: clauses => clause.holds truth && allHold truth clauses

def anyHolds (truth : α → Bool) : List (Clause α) → Bool
  | [] => false
  | clause :: clauses => clause.holds truth || anyHolds truth clauses

end

end Clause

end SigmaCatalog.Query
