import SigmaCatalog.Proofs.Query.Outcome

/-!
# Conversions under different tables

What a conversion meets does not depend on the table, and what it builds depends on the new names
alone.  So a rule that is converted under a table is converted like the rule with its fields renamed
by hand, and the fields noted stay those of the rule as it is written.

A conversion that is not strict takes the fields as they are and discovers all of them; a strict one
stops at the first of these that its table lacks.  A conversion that fails without a table has met
something that no table can help with.
-/

namespace SigmaCatalog

def Rule.rename (newName : String → String) (rule : Rule) : Rule :=
  { rule with detection := rule.detection.rename newName }

namespace Detection

variable (newName : String → String) (detection : Detection)

@[simp]
theorem names_rename : (detection.rename newName).names = detection.names := by
  simp [names, rename, Function.comp_def]

theorem find?_rename (name : String) :
    (detection.rename newName).find? name =
      (detection.find? name).map (SearchIdentifier.rename newName) := by
  simp [find?, rename, List.find?_map, Function.comp_def]

end Detection

theorem SearchIdentifier.fields_rename (newName : String → String) (body : SearchIdentifier) :
    (body.rename newName).fields = body.fields.map newName := by
  cases body with
  | allOf items => simp [rename, fields, DetectionItem.rename, Function.comp_def]
  | anyOf groups =>
    simp [rename, fields, DetectionItem.rename, List.flatMap_map, List.map_flatMap,
      Function.comp_def]
  | keywords values => rfl

namespace Query

variable (newName : String → String) (detection : Detection)

/-! ## The clauses of a renamed block -/

theorem itemsClause_rename (items : List DetectionItem) :
    itemsClause id (items.map (DetectionItem.rename newName)) = itemsClause newName items := by
  rw [itemsClause, itemsClause, List.map_map]
  rfl

theorem bodyClause_rename (body : SearchIdentifier) :
    bodyClause id (body.rename newName) = bodyClause newName body := by
  cases body with
  | allOf items => exact itemsClause_rename newName items
  | anyOf groups =>
    rw [SearchIdentifier.rename, bodyClause, bodyClause, List.map_map]
    exact congrArg _ (List.map_congr_left fun items _ => itemsClause_rename newName items)
  | keywords values => rfl

theorem exprClause_rename (expr : Condition.Expr) :
    exprClause id (detection.rename newName) expr = exprClause newName detection expr := by
  apply exprClause_congr
  · exact Detection.names_rename newName detection
  · intro name
    rw [nameClause, nameClause, Detection.find?_rename]
    cases detection.find? name with
    | none => rfl
    | some body => exact bodyClause_rename newName body

/-! ## What is met in a renamed block -/

def Encounter.rename : Encounter → Encounter
  | field name => field (newName name)
  | obstacle cause => obstacle cause

theorem nameEncounters_rename (name : String) :
    nameEncounters (detection.rename newName) name =
      (nameEncounters detection name).map (Encounter.rename newName) := by
  rw [nameEncounters, nameEncounters, Detection.find?_rename]
  cases detection.find? name with
  | none => rfl
  | some body =>
    simp [SearchIdentifier.fields_rename, Encounter.rename, Function.comp_def]

theorem referenceEncounters_rename (reference : Condition.Reference) :
    referenceEncounters (detection.rename newName) reference =
      (referenceEncounters detection reference).map (Encounter.rename newName) := by
  cases reference with
  | identifier name => exact nameEncounters_rename newName detection name
  | selection pattern =>
    rw [referenceEncounters, referenceEncounters, Detection.names_rename]
    split
    · rfl
    · rw [List.map_flatMap]
      exact List.flatMap_congr fun name _ => nameEncounters_rename newName detection name

theorem encountersIn_rename (conditions : List Condition) :
    encountersIn (detection.rename newName) conditions =
      (encountersIn detection conditions).map (Encounter.rename newName) := by
  rw [encountersIn, encountersIn, List.map_flatMap]
  refine List.flatMap_congr fun condition _ => ?_
  unfold conditionEncounters
  split
  · rfl
  · rw [exprEncounters, exprEncounters, List.map_flatMap]
    exact List.flatMap_congr fun reference _ =>
      referenceEncounters_rename newName detection reference

/-! ## What is refused -/

variable {encounters : List Encounter}

/-- A renaming that is not strict refuses obstacles only. -/
theorem lenient_refusal_eq_none (table : Table String)
    (h : ∀ cause, .obstacle cause ∉ encounters) :
    encounters.findSome? (Renaming.refusal? ⟨table, false⟩) = none := by
  rw [List.findSome?_eq_none_iff]
  intro encounter hmem
  cases encounter with
  | field name => rfl
  | obstacle cause => exact absurd hmem (h cause)

theorem find?_noteField (p : String → Bool) (name : String) (fields others : List String) :
    (noteField name fields ++ others).find? p = (fields ++ name :: others).find? p := by
  unfold noteField
  split
  · next hnoted =>
    rw [List.find?_append, List.find?_append, List.find?_cons]
    cases hp : p name with
    | false => rfl
    | true =>
      have hfound : (fields.find? p).isSome = true :=
        List.find?_isSome.mpr ⟨name, List.contains_iff_mem.mp hnoted, hp⟩
      rw [Option.or_of_isSome hfound, Option.or_of_isSome hfound]
  · rw [List.append_assoc, List.singleton_append]

/-- The first field noted that has a property is the first one met. -/
theorem find?_noteAll (p : String → Bool) (encounters : List Encounter) (fields : List String) :
    (noteAll encounters fields).find? p =
      (fields ++ encounters.filterMap Encounter.field?).find? p := by
  unfold noteAll
  generalize encounters.filterMap Encounter.field? = names
  induction names generalizing fields with
  | nil => rw [List.foldl_nil, List.append_nil]
  | cons name names ih => rw [List.foldl_cons, ih, find?_noteField]

/-- Where there is no obstacle, a strict renaming refuses the first field noted that its table
lacks. -/
theorem strict_refusal (table : Table String) (h : ∀ cause, .obstacle cause ∉ encounters) :
    encounters.findSome? (Renaming.refusal? ⟨table, true⟩) =
      ((noteAll encounters []).find? fun field => (table.get? field).isNone).map
        ConversionError.unmappedField := by
  rw [find?_noteAll, List.nil_append]
  induction encounters with
  | nil => rfl
  | cons encounter encounters ih =>
    have hrest := ih fun cause hmem => h cause (List.mem_cons_of_mem _ hmem)
    cases encounter with
    | obstacle cause => exact absurd List.mem_cons_self (h cause)
    | field name =>
      cases hname : table.get? name with
      | none => simp [Renaming.refusal?, Encounter.field?, hname]
      | some new => simp [Renaming.refusal?, Encounter.field?, hname, hrest]

end Query

/-! ## Conversions -/

namespace Rule

open Query

variable {rule : Rule}

/-- What a rule meets is plain if there is no obstacle in it. -/
def IsPlain (rule : Rule) : Prop :=
  ∀ cause, .obstacle cause ∉ encountersIn rule.detection rule.detection.conditions

/-- A plain rule is converted whatever the table, unless every field must be in it. -/
theorem convert_lenient (h : rule.IsPlain) (table : Table String) :
    rule.convert table false = .ok {
      clauses := rule.detection.conditions.map fun condition =>
        exprClause (fun field => (table.get? field).getD field) rule.detection condition.expr
      fields := noteAll (encountersIn rule.detection rule.detection.conditions) [] } := by
  rw [convert_eq, lenient_refusal_eq_none table h]
  rfl

/-- A strict conversion of a plain rule needs its fields in the table. -/
theorem convert_strict (h : rule.IsPlain) (table : Table String) :
    rule.convert table true =
      match (noteAll (encountersIn rule.detection rule.detection.conditions) []).find?
          fun field => (table.get? field).isNone with
      | some field => .error (.unmappedField field)
      | none => rule.convert table false := by
  rw [convert_eq, strict_refusal table h, convert_lenient h]
  cases (noteAll (encountersIn rule.detection rule.detection.conditions) []).find?
    fun field => (table.get? field).isNone with
  | some field => rfl
  | none => rfl

/-- The names of fields make no difference to whether a rule is plain. -/
theorem IsPlain.rename (h : rule.IsPlain) (newName : String → String) :
    (rule.rename newName).IsPlain := by
  intro cause hmem
  have hencounters := encountersIn_rename newName rule.detection rule.detection.conditions
  change _ ∈ encountersIn (rule.detection.rename newName) rule.detection.conditions at hmem
  rw [hencounters] at hmem
  obtain ⟨encounter, hencounter, heq⟩ := List.mem_map.mp hmem
  cases encounter with
  | field name => cases heq
  | obstacle other => exact h other hencounter

/-- A conversion without a table finds the fields of a rule, and every other conversion of the rule
follows from it: one that is not strict always succeeds, and a strict one exactly when its table has
all these fields; it then has the clauses of the renamed rule, and the same fields.  If the
conversion without a table fails, so does every other one. -/
theorem convert_of_discovery (rule : Rule) :
    match rule.convert ∅ false with
    | .ok found => ∀ table : Table String, ∃ renamed,
      (rule.rename fun field => (table.get? field).getD field).convert ∅ false = .ok renamed ∧
      rule.convert table false = .ok { clauses := renamed.clauses, fields := found.fields } ∧
      rule.convert table true =
        match found.fields.find? fun field => (table.get? field).isNone with
        | some field => .error (.unmappedField field)
        | none => .ok { clauses := renamed.clauses, fields := found.fields }
    | .error _ => ∀ (table : Table String) (strict : Bool), ∃ cause,
      rule.convert table strict = .error cause := by
  by_cases hplain : rule.IsPlain
  · rw [convert_lenient hplain]
    intro table
    refine ⟨_, convert_lenient (hplain.rename _) ∅, ?_⟩
    have hclauses : rule.detection.conditions.map (fun condition =>
          exprClause (fun field => ((∅ : Table String).get? field).getD field)
            (rule.detection.rename fun field => (table.get? field).getD field) condition.expr) =
        rule.detection.conditions.map fun condition =>
          exprClause (fun field => (table.get? field).getD field) rule.detection condition.expr :=
      List.map_congr_left fun condition _ => exprClause_rename _ rule.detection condition.expr
    have hlenient := convert_lenient hplain table
    rw [← hclauses] at hlenient
    refine ⟨hlenient, ?_⟩
    rw [convert_strict hplain table, hlenient]
    rfl
  · obtain ⟨obstacle, hobstacle⟩ := not_forall_not.mp hplain
    have hfails : ∃ cause, rule.convert ∅ false = .error cause := convert_of_obstacle hobstacle
    obtain ⟨cause, hcause⟩ := hfails
    rw [hcause]
    intro table strict
    exact convert_of_obstacle hobstacle

end Rule

end SigmaCatalog
