import SigmaCatalog.Proofs.Query.Course

/-!
# The truth of converted clauses

The clause of an expression holds exactly when the expression does.  Each level of the translation,
from the single value up to the whole expression, has its own lemma.
-/

namespace SigmaCatalog.Query

namespace Clause

variable {α β : Type} (truth : α → Bool)

theorem allHold_eq_all (clauses : List (Clause α)) :
    allHold truth clauses = clauses.all (holds truth) := by
  induction clauses with
  | nil => rfl
  | cons clause clauses ih => rw [allHold, ih, List.all_cons]

theorem anyHolds_eq_any (clauses : List (Clause α)) :
    anyHolds truth clauses = clauses.any (holds truth) := by
  induction clauses with
  | nil => rfl
  | cons clause clauses ih => rw [anyHolds, ih, List.any_cons]

theorem holds_group (joint : Joint) (clauses : List (Clause α)) :
    (group joint clauses).holds truth = joint.holds (clauses.map (holds truth)) := by
  cases joint with
  | all => simp [holds, allHold_eq_all, Joint.holds]
  | any => simp [holds, anyHolds_eq_any, Joint.holds]

/-- Joining clauses joins their values, also where a single clause stands alone. -/
theorem holds_join (joint : Joint) (clauses : List (Clause α)) :
    (join joint clauses).holds truth = joint.holds (clauses.map (holds truth)) := by
  unfold join
  split
  · cases joint with
    | all => simp [Joint.holds]
    | any => simp [Joint.holds]
  · exact holds_group truth joint clauses

mutual

/-- A clause whose leaves are changed holds when it held of the changed leaves. -/
theorem holds_map (truth : β → Bool) (f : α → β) (clause : Clause α) :
    (clause.map f).holds truth = clause.holds fun test => truth (f test) := by
  match clause with
  | .leaf test => rfl
  | .not operand => rw [map, holds, holds, holds_map truth f operand]
  | .group joint operands =>
    rw [map, holds_group, holds_group, map_holds_mapAll truth f operands]

theorem map_holds_mapAll (truth : β → Bool) (f : α → β) (clauses : List (Clause α)) :
    (mapAll f clauses).map (holds truth) = clauses.map (holds fun test => truth (f test)) := by
  match clauses with
  | [] => rfl
  | clause :: clauses =>
    rw [mapAll, List.map_cons, List.map_cons, holds_map truth f clause,
      map_holds_mapAll truth f clauses]

end

end Clause

variable (newName : String → String) (truth : Leaf → Bool)

theorem valueClause_holds (item : DetectionItem) (value : DetectionValue) :
    (valueClause (newName item.field) item value).holds truth =
      valueHolds newName truth item value := by
  unfold valueClause valueHolds
  cases item.has .exists with
  | true =>
    cases value with
    | bool b => cases b <;> rfl
    | _ => rfl
  | false => cases value <;> rfl

theorem itemClause_holds (item : DetectionItem) :
    (itemClause (newName item.field) item).holds truth = itemHolds newName truth item := by
  have hvalues : Clause.holds truth ∘ valueClause (newName item.field) item =
      valueHolds newName truth item :=
    funext (valueClause_holds newName truth item)
  rw [itemClause, Clause.holds_join, List.map_map, hvalues, itemHolds]

theorem itemsClause_holds (items : List DetectionItem) :
    (itemsClause newName items).holds truth = items.all (itemHolds newName truth) := by
  simp [itemsClause, Clause.holds_join, Joint.holds, Function.comp_def, itemClause_holds]

theorem bodyClause_holds (body : SearchIdentifier) :
    (bodyClause newName body).holds truth = bodyHolds newName truth body := by
  cases body with
  | allOf items => exact itemsClause_holds newName truth items
  | anyOf groups =>
    simp [bodyClause, bodyHolds, Clause.holds_join, Joint.holds, Function.comp_def,
      itemsClause_holds]
  | keywords values =>
    simp [bodyClause, bodyHolds, Clause.holds_join, Joint.holds, Function.comp_def, Clause.holds]

theorem nameClause_holds (detection : Detection) (name : String) :
    (nameClause newName detection name).holds truth =
      nameHolds newName truth detection name := by
  unfold nameClause nameHolds
  cases detection.find? name with
  | none => rfl
  | some body => exact bodyClause_holds newName truth body

mutual

/-- The clause of an expression holds exactly when the expression does. -/
theorem exprClause_holds (detection : Detection) (expr : Condition.Expr) :
    (exprClause newName detection expr).holds truth = exprHolds newName truth detection expr := by
  match expr with
  | .identifier name => exact nameClause_holds newName truth detection name
  | .not operand =>
    rw [exprClause, Clause.holds, exprHolds, exprClause_holds detection operand]
  | .and operands =>
    rw [exprClause, Clause.holds_join, exprHolds]
    exact exprClauses_all_hold detection operands
  | .or operands =>
    rw [exprClause, Clause.holds_join, exprHolds]
    exact exprClauses_any_holds detection operands
  | .oneOf pattern =>
    simp [exprClause, exprHolds, Clause.holds_join, Joint.holds, Function.comp_def,
      nameClause_holds]
  | .allOf pattern =>
    simp [exprClause, exprHolds, Clause.holds_join, Joint.holds, Function.comp_def,
      nameClause_holds]

theorem exprClauses_all_hold (detection : Detection) (operands : List Condition.Expr) :
    Joint.all.holds ((exprClauses newName detection operands).map (Clause.holds truth)) =
      allExprsHold newName truth detection operands := by
  match operands with
  | [] => rfl
  | operand :: operands =>
    rw [exprClauses, allExprsHold, ← exprClause_holds detection operand,
      ← exprClauses_all_hold detection operands]
    rfl

theorem exprClauses_any_holds (detection : Detection) (operands : List Condition.Expr) :
    Joint.any.holds ((exprClauses newName detection operands).map (Clause.holds truth)) =
      someExprHolds newName truth detection operands := by
  match operands with
  | [] => rfl
  | operand :: operands =>
    rw [exprClauses, someExprHolds, ← exprClause_holds detection operand,
      ← exprClauses_any_holds detection operands]
    rfl

end

end SigmaCatalog.Query
