import SigmaCatalog.Query.Meaning
import SigmaCatalog.Rule.Detection.Fields

/-!
# The course of a conversion

A conversion does two things at once: it builds clauses, and on the way it notes fields and may
stop.  Here the two are taken apart.  The *encounters* of an expression are the fields to be renamed
and the obstacles in the order in which they are met; they do not depend on the renaming.  The
*clause* of an expression is built from the new names alone.  A conversion is its encounters, one
after another, followed by its clause.

So what a conversion notes and where it stops is read off a list, and what it builds is a function
that cannot fail.
-/

namespace SigmaCatalog.Query

/-- What a conversion meets on its way. -/
inductive Encounter where
  /-- A field that is noted and renamed. -/
  | field (name : String)
  /-- A reason to stop, whatever the renaming. -/
  | obstacle (cause : ConversionError)
  deriving DecidableEq

def meet (naming : Renaming) : Encounter → Converting PUnit
  | .field name => do let _ ← rename naming name
  | .obstacle cause => throw cause

def meetAll (naming : Renaming) (encounters : List Encounter) : Converting PUnit :=
  forM encounters (meet naming)

/-! ## The two halves -/

section Clauses

variable (newName : String → String)

/-- The clause of items that must all hold. -/
def itemsClause (items : List DetectionItem) : Clause Leaf :=
  .join .all (items.map fun item => itemClause (newName item.field) item)

def bodyClause : SearchIdentifier → Clause Leaf
  | .allOf items => itemsClause newName items
  | .anyOf groups => .join .any (groups.map (itemsClause newName))
  | .keywords values => .join .any (values.map fun value => .leaf (.anywhere (keywordTerm value)))

/-- The clause of a search identifier that is mentioned by name; an unknown one never holds. -/
def nameClause (detection : Detection) (name : String) : Clause Leaf :=
  match detection.find? name with
  | some body => bodyClause newName body
  | none => .join .any []

mutual

def exprClause (detection : Detection) : Condition.Expr → Clause Leaf
  | .identifier name => nameClause newName detection name
  | .not operand => .not (exprClause detection operand)
  | .and operands => .join .all (exprClauses detection operands)
  | .or operands => .join .any (exprClauses detection operands)
  | .oneOf pattern =>
    .join .any ((pattern.expand detection.names).map (nameClause newName detection))
  | .allOf pattern =>
    .join .all ((pattern.expand detection.names).map (nameClause newName detection))

def exprClauses (detection : Detection) : List Condition.Expr → List (Clause Leaf)
  | [] => []
  | operand :: operands => exprClause detection operand :: exprClauses detection operands

end

theorem exprClauses_eq_map (detection : Detection) (operands : List Condition.Expr) :
    exprClauses newName detection operands =
      operands.map (exprClause newName detection) := by
  induction operands with
  | nil => rfl
  | cons operand operands ih => rw [exprClauses, ih, List.map_cons]

end Clauses

/-- What is met at a mention of a search identifier. -/
def nameEncounters (detection : Detection) (name : String) : List Encounter :=
  match detection.find? name with
  | some body => body.fields.map .field
  | none => [.obstacle (.unknownIdentifier name)]

def referenceEncounters (detection : Detection) : Condition.Reference → List Encounter
  | .identifier name => nameEncounters detection name
  | .selection pattern =>
    match pattern.expand detection.names with
    | [] => [.obstacle (.emptySelection pattern)]
    | names => names.flatMap (nameEncounters detection)

def exprEncounters (detection : Detection) (expr : Condition.Expr) : List Encounter :=
  expr.references.flatMap (referenceEncounters detection)

def conditionEncounters (detection : Detection) (condition : Condition) : List Encounter :=
  if condition.aggregation.isSome then [.obstacle (.aggregation condition.source)]
  else exprEncounters detection condition.expr

/-- What is met in conditions that are converted one after another. -/
def encountersIn (detection : Detection) (conditions : List Condition) : List Encounter :=
  conditions.flatMap (conditionEncounters detection)

/-! ## Computations that meet something and then have a value -/

/-- Whether a computation meets what is listed and then has the value. -/
def Meets {α : Type} (naming : Renaming) (computation : Converting α)
    (encounters : List Encounter) (value : α) : Prop :=
  computation = do
    meetAll naming encounters
    return value

namespace Meets

variable {α β : Type} {naming : Renaming}

theorem return_value (value : α) : Meets naming (return value) [] value := by
  simp [Meets, meetAll]

theorem obstacle (cause : ConversionError) (value : α) :
    Meets naming (throw cause) [.obstacle cause] value := by
  funext fields
  rfl

theorem bind {first : Converting α} {next : α → Converting β} {before after : List Encounter}
    {value : α} {last : β} (hfirst : Meets naming first before value)
    (hnext : Meets naming (next value) after last) :
    Meets naming (first >>= next) (before ++ after) last := by
  unfold Meets at *
  rw [hfirst, bind_assoc, pure_bind, hnext]
  simp [meetAll, List.forM_append]

theorem map {computation : Converting α} {encounters : List Encounter} {value : α}
    (h : Meets naming computation encounters value) (f : α → β) :
    Meets naming (do return f (← computation)) encounters (f value) := by
  have hbind : Meets naming (computation >>= fun value => return f value) (encounters ++ [])
      (f value) :=
    h.bind (return_value (f value))
  rwa [List.append_nil] at hbind

/-- A traversal meets what its elements meet, from left to right. -/
theorem mapM {f : α → Converting β} {encounters : α → List Encounter} {value : α → β}
    (h : ∀ x, Meets naming (f x) (encounters x) (value x)) (xs : List α) :
    Meets naming (xs.mapM f) (xs.flatMap encounters) (xs.map value) := by
  induction xs with
  | nil => exact return_value []
  | cons x xs ih =>
    rw [List.mapM_cons, List.flatMap_cons, List.map_cons]
    exact (h x).bind (ih.map (value x :: ·))

end Meets

/-! ## Every conversion takes its course -/

section Conversions

variable (detection : Detection) (naming : Renaming)

/-- A field that is renamed is met, and where the conversion goes on it has its new name. -/
theorem rename_meets (field : String) :
    Meets naming (rename naming field) [.field field] (naming.newName field) := by
  funext fields
  cases hname : naming.table.get? field with
  | some name =>
    simp [meetAll, meet, rename, Renaming.newName, hname]
  | none =>
    cases hstrict : naming.strict with
    | true => simp [meetAll, meet, rename, hname, hstrict]; rfl
    | false => simp [meetAll, meet, rename, Renaming.newName, hname, hstrict]

theorem convertItem_meets (item : DetectionItem) :
    Meets naming (convertItem naming item) [.field item.field]
      (itemClause (naming.newName item.field) item) :=
  (rename_meets naming item.field).map (itemClause · item)

theorem convertItems_meets (items : List DetectionItem) :
    Meets naming (convertItems naming items) (items.map fun item => .field item.field)
      (itemsClause naming.newName items) := by
  have h := (Meets.mapM (convertItem_meets naming) items).map (Clause.join .all)
  rwa [← List.map_eq_flatMap] at h

theorem convertBody_meets (body : SearchIdentifier) :
    Meets naming (convertBody naming body) (body.fields.map .field)
      (bodyClause naming.newName body) := by
  cases body with
  | allOf items =>
    simpa [SearchIdentifier.fields, convertBody, bodyClause, Function.comp_def]
      using convertItems_meets naming items
  | anyOf groups =>
    simpa [SearchIdentifier.fields, convertBody, bodyClause, List.map_flatMap, Function.comp_def]
      using (Meets.mapM (convertItems_meets naming) groups).map (Clause.join .any)
  | keywords values => exact Meets.return_value _

theorem convertName_meets (name : String) :
    Meets naming (convertName detection naming name) (nameEncounters detection name)
      (nameClause naming.newName detection name) := by
  unfold convertName nameEncounters nameClause
  cases detection.find? name with
  | some body => exact convertBody_meets naming body
  | none => exact Meets.obstacle _ _

theorem convertSelection_meets (joint : Joint) (pattern : NamePattern) :
    Meets naming (convertSelection detection naming joint pattern)
      (referenceEncounters detection (.selection pattern))
      (.join joint
        ((pattern.expand detection.names).map (nameClause naming.newName detection))) := by
  simp only [convertSelection, referenceEncounters]
  cases pattern.expand detection.names with
  | nil => exact Meets.obstacle _ _
  | cons name names =>
    exact (Meets.mapM (convertName_meets detection naming) (name :: names)).map (Clause.join joint)

mutual

/-- The conversion of an expression is its encounters and then its clause. -/
theorem convertExpr_meets (expr : Condition.Expr) :
    Meets naming (convertExpr detection naming expr) (exprEncounters detection expr)
      (exprClause naming.newName detection expr) := by
  match expr with
  | .identifier name =>
    simpa [exprEncounters, Condition.Expr.references, referenceEncounters, convertExpr, exprClause]
      using convertName_meets detection naming name
  | .not operand =>
    simpa [exprEncounters, Condition.Expr.references, convertExpr, exprClause]
      using (convertExpr_meets operand).map Clause.not
  | .and operands =>
    simpa [exprEncounters, Condition.Expr.references, convertExpr, exprClause]
      using (convertExprs_meets operands).map (Clause.join .all)
  | .or operands =>
    simpa [exprEncounters, Condition.Expr.references, convertExpr, exprClause]
      using (convertExprs_meets operands).map (Clause.join .any)
  | .oneOf pattern =>
    simpa [exprEncounters, Condition.Expr.references, convertExpr, exprClause]
      using convertSelection_meets detection naming .any pattern
  | .allOf pattern =>
    simpa [exprEncounters, Condition.Expr.references, convertExpr, exprClause]
      using convertSelection_meets detection naming .all pattern

theorem convertExprs_meets (operands : List Condition.Expr) :
    Meets naming (convertExprs detection naming operands)
      ((Condition.Expr.listReferences operands).flatMap (referenceEncounters detection))
      (exprClauses naming.newName detection operands) := by
  match operands with
  | [] => exact Meets.return_value []
  | operand :: operands =>
    rw [convertExprs, exprClauses, Condition.Expr.listReferences, List.flatMap_append]
    exact (convertExpr_meets operand).bind
      ((convertExprs_meets operands).map (exprClause naming.newName detection operand :: ·))

end

theorem convertCondition_meets (condition : Condition) :
    Meets naming (convertCondition detection naming condition)
      (conditionEncounters detection condition)
      (exprClause naming.newName detection condition.expr) := by
  unfold convertCondition conditionEncounters
  cases condition.aggregation with
  | some clause => exact Meets.obstacle _ _
  | none => exact convertExpr_meets detection naming condition.expr

end Conversions

/-! ## What comes of a conversion -/

def Encounter.field? : Encounter → Option String
  | field name => some name
  | obstacle _ => none

/-- Why a renaming stops at what is met: every obstacle stops it, and a strict one stops at a field
that its table lacks. -/
def Renaming.refusal? (naming : Renaming) : Encounter → Option ConversionError
  | .field name =>
    if naming.strict && (naming.table.get? name).isNone then some (.unmappedField name) else none
  | .obstacle cause => some cause

/-- The fields noted after those that are met. -/
def noteAll (encounters : List Encounter) (fields : List String) : List String :=
  (encounters.filterMap Encounter.field?).foldl (fun noted name => noteField name noted) fields

theorem mem_noteField {field noted : String} {fields : List String} :
    noted ∈ noteField field fields ↔ noted = field ∨ noted ∈ fields := by
  unfold noteField
  split
  · next h =>
    rw [List.contains_iff_mem] at h
    exact ⟨.inr, fun hnoted => hnoted.elim (fun heq => heq ▸ h) id⟩
  · rw [List.mem_append, List.mem_singleton, or_comm]

/-- The fields noted are those that are met and those that were noted before. -/
theorem mem_noteAll {encounters : List Encounter} {fields : List String} {field : String} :
    field ∈ noteAll encounters fields ↔ .field field ∈ encounters ∨ field ∈ fields := by
  induction encounters generalizing fields with
  | nil => simp [noteAll]
  | cons encounter encounters ih =>
    cases encounter with
    | obstacle cause =>
      have hstep : noteAll (.obstacle cause :: encounters) fields = noteAll encounters fields := rfl
      rw [hstep, ih]
      simp
    | field name =>
      have hstep : noteAll (.field name :: encounters) fields =
          noteAll encounters (noteField name fields) := rfl
      rw [hstep, ih, mem_noteField, List.mem_cons, Encounter.field.injEq, or_left_comm, or_assoc]

theorem run_meet (naming : Renaming) (encounter : Encounter) (fields : List String) :
    (meet naming encounter).run fields =
      match naming.refusal? encounter with
      | some cause => .error cause
      | none => .ok (⟨⟩, noteAll [encounter] fields) := by
  cases encounter with
  | obstacle cause => rfl
  | field name =>
    cases hname : naming.table.get? name with
    | some new =>
      simp [meet, rename, Renaming.refusal?, noteAll, Encounter.field?, hname]
      rfl
    | none =>
      cases hstrict : naming.strict with
      | true =>
        simp [meet, rename, Renaming.refusal?, hname, hstrict]
        rfl
      | false =>
        simp [meet, rename, Renaming.refusal?, noteAll, Encounter.field?, hname, hstrict]
        rfl

/-- Meeting a list stops at the first thing in it that the renaming refuses. -/
theorem run_meetAll (naming : Renaming) (encounters : List Encounter) (fields : List String) :
    (meetAll naming encounters).run fields =
      match encounters.findSome? naming.refusal? with
      | some cause => .error cause
      | none => .ok (⟨⟩, noteAll encounters fields) := by
  induction encounters generalizing fields with
  | nil => rfl
  | cons encounter encounters ih =>
    rw [meetAll, List.forM_cons, StateT.run_bind, run_meet, List.findSome?_cons]
    cases naming.refusal? encounter with
    | some cause => rfl
    | none =>
      have hnote : noteAll (encounter :: encounters) fields =
          noteAll encounters (noteAll [encounter] fields) := by
        rw [noteAll, noteAll, noteAll, ← List.foldl_append, ← List.filterMap_append]
        rfl
      rw [hnote]
      exact ih _

/-- What comes of a computation whose course is known. -/
theorem Meets.run_eq {α : Type} {naming : Renaming} {computation : Converting α}
    {encounters : List Encounter} {value : α}
    (h : Meets naming computation encounters value) (fields : List String) :
    computation.run fields =
      match encounters.findSome? naming.refusal? with
      | some cause => .error cause
      | none => .ok (value, noteAll encounters fields) := by
  unfold Meets at h
  rw [h, StateT.run_bind, run_meetAll]
  cases encounters.findSome? naming.refusal? with
  | some cause => rfl
  | none => rfl

/-- A conversion stops at the first encounter that the renaming refuses; otherwise it consists of
the clauses of the conditions and the fields met. -/
theorem ofDetection_eq (detection : Detection) (naming : Renaming) :
    Conversion.ofDetection detection naming =
      match (encountersIn detection detection.conditions).findSome? naming.refusal? with
      | some cause => .error cause
      | none => .ok {
          clauses := detection.conditions.map fun condition =>
            exprClause naming.newName detection condition.expr
          fields := noteAll (encountersIn detection detection.conditions) [] } := by
  have hmeets := Meets.mapM (convertCondition_meets detection naming) detection.conditions
  rw [Conversion.ofDetection, hmeets.run_eq, encountersIn]
  cases (detection.conditions.flatMap (conditionEncounters detection)).findSome?
    naming.refusal? with
  | some cause => rfl
  | none => rfl

section Success

variable {detection : Detection} {naming : Renaming} {conversion : Conversion}

theorem clauses_of_conversion (h : Conversion.ofDetection detection naming = .ok conversion) :
    conversion.clauses = detection.conditions.map fun condition =>
      exprClause naming.newName detection condition.expr := by
  rw [ofDetection_eq] at h
  split at h
  · cases h
  · obtain rfl := Except.ok.inj h
    rfl

/-- A conversion that succeeds has met no obstacle. -/
theorem no_obstacle_of_conversion (h : Conversion.ofDetection detection naming = .ok conversion)
    (cause : ConversionError) :
    .obstacle cause ∉ encountersIn detection detection.conditions := by
  intro hobstacle
  rw [ofDetection_eq] at h
  split at h
  · cases h
  · next hrefusal =>
    have hnone := List.findSome?_eq_none_iff.mp hrefusal _ hobstacle
    cases hnone

end Success

end SigmaCatalog.Query
