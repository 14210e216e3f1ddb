import Mathlib.Data.List.Basic
import Mathlib.Data.List.Forall2
import SigmaCatalog.Compilation
import SigmaCatalog.Proofs.Query.Course
import SigmaCatalog.Proofs.Rule.Detection

/-!
# What comes of converting a valid rule

The checks that a rule has passed leave two reasons to stop: a condition with an aggregation, and in
a strict conversion a field without a new name.  Otherwise each condition gives one query, and it is
the query that the condition gives by itself, whatever conditions stand before it.

The checks look names up in the list of declared names, and a conversion looks them up in the search
identifiers that were read.  They agree since every body that cannot be read leaves a problem.
-/

namespace SigmaCatalog

/-! ## What the conditions of a valid rule meet -/

namespace Query

variable {detection : Detection}

theorem nameEncounters_of_isSome {name : String} (h : (detection.find? name).isSome) :
    nameEncounters detection name = (detection.fieldsOf name).map .field := by
  obtain ⟨body, hbody⟩ := Option.isSome_iff_exists.mp h
  rw [nameEncounters, Detection.fieldsOf, hbody]

/-- A reference that resolves meets the fields it consults and nothing else. -/
theorem referenceEncounters_of_resolves {reference : Condition.Reference}
    (h : detection.Resolves reference) :
    referenceEncounters detection reference =
      ((detection.referredNames reference).flatMap detection.fieldsOf).map .field := by
  cases reference with
  | identifier name =>
    rw [Detection.referredNames, List.flatMap_singleton]
    exact nameEncounters_of_isSome h
  | selection pattern =>
    have hnames : (pattern.expand detection.names).flatMap (nameEncounters detection) =
        (pattern.expand detection.names).flatMap
          fun name => (detection.fieldsOf name).map .field :=
      List.flatMap_congr fun name hname => nameEncounters_of_isSome
        (Detection.find?_isSome_of_mem (NamePattern.expand_subset hname))
    rw [Detection.referredNames, List.map_flatMap, ← hnames, referenceEncounters]
    split
    · next hnil => exact absurd hnil h
    · rfl

/-- Conditions without aggregations whose references resolve meet the fields they consult. -/
theorem encountersIn_of_plain {conditions : List Condition}
    (hplain : ∀ condition ∈ conditions, condition.aggregation = none)
    (hresolves : ∀ condition ∈ conditions, ∀ reference ∈ condition.expr.references,
      detection.Resolves reference) :
    encountersIn detection conditions =
      ({ detection with conditions } : Detection).consultedFields.map .field := by
  have hcondition : ∀ condition ∈ conditions, conditionEncounters detection condition =
      (condition.expr.references.flatMap fun reference =>
        (detection.referredNames reference).flatMap detection.fieldsOf).map .field := by
    intro condition hmem
    rw [conditionEncounters, hplain condition hmem, Option.isSome_none, if_neg Bool.false_ne_true,
      exprEncounters, List.map_flatMap]
    exact List.flatMap_congr fun reference hreference =>
      referenceEncounters_of_resolves (hresolves condition hmem reference hreference)
  rw [encountersIn, List.flatMap_congr hcondition, Detection.consultedFields, List.map_flatMap]
  rfl

/-- A conversion stops at the first condition with an aggregation, unless it has refused a field
before. -/
theorem refusal_of_aggregation {naming : Renaming} {before after : List Condition}
    {refused : Condition} (hplain : ∀ condition ∈ before, condition.aggregation = none)
    (hrefused : refused.aggregation.isSome = true)
    (hresolves : ∀ condition ∈ before, ∀ reference ∈ condition.expr.references,
      detection.Resolves reference) :
    (encountersIn detection (before ++ refused :: after)).findSome? naming.refusal? =
      (({ detection with conditions := before } : Detection).consultedFields.findSome?
        (naming.refusal? ∘ .field)).or (some (.aggregation refused.source)) := by
  have hstop : conditionEncounters detection refused =
      [.obstacle (.aggregation refused.source)] := by
    rw [conditionEncounters, if_pos hrefused]
  have hbefore := encountersIn_of_plain hplain hresolves
  rw [encountersIn] at hbefore
  rw [encountersIn, List.flatMap_append, List.flatMap_cons, hstop, hbefore, List.findSome?_append,
    List.findSome?_map]
  rfl

/-- A pass that is not strict refuses no field. -/
theorem lenient_refusal (fields : List String) :
    fields.findSome? (Renaming.refusal? ⟨∅, false⟩ ∘ .field) = none :=
  List.findSome?_eq_none_iff.mpr fun _ _ => rfl

end Query

/-! ## Aggregations are written with a bar -/

theorem Text.mem_trimStart {c : Char} {text : List Char} (h : c ∈ text)
    (hvisible : isBlank c = false) : c ∈ trimStart text := by
  induction text with
  | nil => exact h
  | cons first text ih =>
    rw [trimStart, List.dropWhile_cons]
    split
    · next hblank =>
      rcases List.mem_cons.mp h with rfl | h
      · rw [hblank] at hvisible
        cases hvisible
      · exact ih h
    · exact h

theorem Text.mem_trimChars {c : Char} {text : List Char} (h : c ∈ text)
    (hvisible : isBlank c = false) : c ∈ trimChars text := by
  rw [trimChars, List.mem_reverse]
  apply mem_trimStart _ hvisible
  rw [List.mem_reverse]
  exact mem_trimStart h hvisible

theorem Condition.bar_mem_source {source : String} {condition : Condition}
    (h : parse source = .ok condition) (haggregation : condition.aggregation.isSome = true) :
    '|' ∈ condition.source.toList := by
  unfold parse at h
  cases hsplit : Text.splitFirst '|' source.toList with
  | none =>
    simp only [hsplit] at h
    split at h
    · cases h
    · split at h
      · cases h
      · obtain rfl := Except.ok.inj h
        cases haggregation
  | some parts =>
    obtain ⟨before, after⟩ := parts
    have hbar : '|' ∈ source.toList := by
      rw [(Text.append_of_splitFirst_eq_some hsplit).1]
      simp
    simp only [hsplit] at h
    split at h
    · cases h
    · split at h
      · cases h
      · obtain rfl := Except.ok.inj h
        rw [Text.trim, String.toList_ofList]
        exact Text.mem_trimChars hbar (by decide)

/-! ## Conditions by themselves -/

namespace Query

section Clauses

variable {newName other : String → String} {detection block : Detection}

mutual

/-- The clause of an expression depends on the names of a block and on their clauses only. -/
theorem exprClause_congr (hnames : block.names = detection.names)
    (hclause : ∀ name, nameClause other block name = nameClause newName detection name)
    (expr : Condition.Expr) : exprClause other block expr = exprClause newName detection expr := by
  match expr with
  | .identifier name => exact hclause name
  | .not operand => rw [exprClause, exprClause, exprClause_congr hnames hclause operand]
  | .and operands | .or operands =>
    rw [exprClause, exprClause, exprClauses_congr hnames hclause operands]
  | .oneOf pattern | .allOf pattern =>
    rw [exprClause, exprClause, hnames, List.map_congr_left fun name _ => hclause name]

theorem exprClauses_congr (hnames : block.names = detection.names)
    (hclause : ∀ name, nameClause other block name = nameClause newName detection name)
    (operands : List Condition.Expr) :
    exprClauses other block operands = exprClauses newName detection operands := by
  match operands with
  | [] => rfl
  | operand :: operands =>
    rw [exprClauses, exprClauses, exprClause_congr hnames hclause operand,
      exprClauses_congr hnames hclause operands]

end

end Clauses

/-- A condition by itself meets what it meets among others, and then it is converted to the same
clause. -/
theorem ofDetection_single {detection : Detection} {naming : Renaming} {condition : Condition}
    (h : (conditionEncounters detection condition).findSome? naming.refusal? = none) :
    Conversion.ofDetection { detection with conditions := [condition] } naming = .ok {
      clauses := [exprClause naming.newName detection condition.expr]
      fields := noteAll (conditionEncounters detection condition) [] } := by
  have hmet : encountersIn { detection with conditions := [condition] } [condition] =
      conditionEncounters detection condition :=
    List.flatMap_singleton _ condition
  have hclause : exprClause naming.newName { detection with conditions := [condition] }
      condition.expr = exprClause naming.newName detection condition.expr := by
    apply exprClause_congr
    · rfl
    · intro name
      rfl
  rw [ofDetection_eq]
  dsimp only
  rw [hmet, h, List.map_singleton, hclause]

theorem mem_encountersIn {detection : Detection} {conditions : List Condition}
    {encounter : Encounter} :
    encounter ∈ encountersIn detection conditions ↔
      ∃ condition ∈ conditions, encounter ∈ conditionEncounters detection condition :=
  List.mem_flatMap

/-- In conditions whose references resolve there is no obstacle but an aggregation, and every field
met is one of those consulted. -/
theorem encounter_cases {detection : Detection}
    (hresolves : ∀ condition ∈ detection.conditions, ∀ reference ∈ condition.expr.references,
      detection.Resolves reference) {encounter : Encounter}
    (h : encounter ∈ encountersIn detection detection.conditions) :
    (∃ condition ∈ detection.conditions, condition.aggregation.isSome = true ∧
      encounter = .obstacle (.aggregation condition.source)) ∨
    ∃ field ∈ detection.consultedFields, encounter = .field field := by
  obtain ⟨condition, hcondition, hencounter⟩ := mem_encountersIn.mp h
  unfold conditionEncounters at hencounter
  split at hencounter
  · next haggregation =>
    exact .inl ⟨condition, hcondition, haggregation, List.mem_singleton.mp hencounter⟩
  · right
    obtain ⟨reference, hreference, hencounter⟩ := List.mem_flatMap.mp hencounter
    rw [referenceEncounters_of_resolves (hresolves condition hcondition reference hreference)]
      at hencounter
    obtain ⟨field, hfield, rfl⟩ := List.mem_map.mp hencounter
    refine ⟨field, ?_, rfl⟩
    exact List.mem_flatMap.mpr
      ⟨condition, hcondition, List.mem_flatMap.mpr ⟨reference, hreference, hfield⟩⟩

end Query

/-! ## Outcomes -/

namespace Rule

open Query

/-- The rule with one of its conditions only. -/
def only (rule : Rule) (condition : Condition) : Rule :=
  { rule with detection := { rule.detection with conditions := [condition] } }

/-- What may come of converting a valid rule. -/
inductive Outcome (rule : Rule) (table : Table String) (strict : Bool) :
    Except CompileError Conversion → Prop
  /-- One query for each condition, in order: the one that the condition gives by itself. -/
  | queries {conversion : Conversion}
    (h : List.Forall₂ (fun condition query => ∃ single,
        (rule.only condition).convert table strict = .ok single ∧ single.queries = [query])
      rule.detection.conditions conversion.queries) : Outcome rule table strict (.ok conversion)
  | aggregation {condition : Condition} (hmem : condition ∈ rule.detection.conditions)
    (haggregation : condition.aggregation.isSome = true)
    (hbar : '|' ∈ condition.source.toList) :
    Outcome rule table strict (.error (.unsupportedCondition condition.source))
  | unmapped {field : String} (hstrict : strict = true)
    (hfield : field ∈ rule.detection.consultedFields) (hmissing : table.get? field = none) :
    Outcome rule table strict (.error (.unmappedField field))

variable {rule : Rule} {table : Table String} {strict : Bool}

theorem convert_eq (rule : Rule) (table : Table String) (strict : Bool) :
    rule.convert table strict =
      match (encountersIn rule.detection rule.detection.conditions).findSome?
          (Renaming.refusal? ⟨table, strict⟩) with
      | some cause => .error (.ofConversion cause)
      | none => .ok {
          clauses := rule.detection.conditions.map fun condition =>
            exprClause (Renaming.newName ⟨table, strict⟩) rule.detection condition.expr
          fields := noteAll (encountersIn rule.detection rule.detection.conditions) [] } := by
  rw [convert, ofDetection_eq]
  cases (encountersIn rule.detection rule.detection.conditions).findSome?
    (Renaming.refusal? ⟨table, strict⟩) with
  | some cause => rfl
  | none => rfl

theorem conversion_of_convert {conversion : Conversion}
    (h : rule.convert table strict = .ok conversion) :
    Conversion.ofDetection rule.detection ⟨table, strict⟩ = .ok conversion := by
  unfold convert at h
  cases hresult : Conversion.ofDetection rule.detection ⟨table, strict⟩ with
  | ok made =>
    rw [hresult] at h
    exact congrArg Except.ok (Except.ok.inj h)
  | error cause =>
    rw [hresult] at h
    cases h

/-- A conversion that succeeds gives for each condition what it gives by itself. -/
theorem queries_of_convert {conversion : Conversion}
    (h : rule.convert table strict = .ok conversion) :
    List.Forall₂ (fun condition query => ∃ single,
        (rule.only condition).convert table strict = .ok single ∧ single.queries = [query])
      rule.detection.conditions conversion.queries := by
  rw [convert_eq] at h
  split at h
  · cases h
  · next hrefusal =>
    obtain rfl := Except.ok.inj h
    rw [Conversion.queries, List.map_map, List.forall₂_map_right_iff, List.forall₂_same]
    intro condition hcondition
    have hsingle : (conditionEncounters rule.detection condition).findSome?
        (Renaming.refusal? ⟨table, strict⟩) = none := by
      rw [List.findSome?_eq_none_iff] at hrefusal ⊢
      intro encounter hencounter
      exact hrefusal encounter (mem_encountersIn.mpr ⟨condition, hcondition, hencounter⟩)
    have hconvert : (rule.only condition).convert table strict = .ok {
        clauses := [exprClause (Renaming.newName ⟨table, strict⟩) rule.detection condition.expr]
        fields := noteAll (conditionEncounters rule.detection condition) [] } := by
      rw [convert, only, ofDetection_single hsingle]
      rfl
    exact ⟨_, hconvert, rfl⟩

/-- An obstacle stops every conversion of a rule. -/
theorem convert_of_obstacle {obstacle : ConversionError}
    (h : .obstacle obstacle ∈ encountersIn rule.detection rule.detection.conditions) :
    ∃ cause, rule.convert table strict = .error cause := by
  rw [convert_eq]
  split
  · exact ⟨_, rfl⟩
  · next hrefusal => cases List.findSome?_eq_none_iff.mp hrefusal _ h

/-- So does an aggregation in any of its conditions. -/
theorem convert_of_aggregation
    (h : ∃ condition ∈ rule.detection.conditions, condition.aggregation.isSome = true) :
    ∃ cause, rule.convert table strict = .error cause := by
  obtain ⟨condition, hcondition, haggregation⟩ := h
  have hobstacle : .obstacle (.aggregation condition.source) ∈
      encountersIn rule.detection rule.detection.conditions := by
    refine mem_encountersIn.mpr ⟨condition, hcondition, ?_⟩
    rw [conditionEncounters, if_pos haggregation]
    exact List.mem_singleton_self _
  exact convert_of_obstacle hobstacle

/-- Converting a valid rule has one of the expected outcomes, and no rule with an aggregation gives
any queries. -/
theorem convert_outcome (rule : Rule) (table : Table String) (strict : Bool) :
    ((∃ text, parse text = .ok rule) → rule.isValid = true →
      rule.Outcome table strict (rule.convert table strict)) ∧
    ((∃ condition ∈ rule.detection.conditions, condition.aggregation.isSome = true) →
      ∃ cause, rule.convert table strict = .error cause) := by
  refine ⟨?_, convert_of_aggregation⟩
  rintro ⟨text, hparse⟩ hvalid
  cases hconvert : rule.convert table strict with
  | ok conversion => exact .queries (queries_of_convert hconvert)
  | error cause =>
    rw [convert_eq] at hconvert
    split at hconvert
    · next refused hrefusal =>
      obtain rfl := Except.error.inj hconvert
      obtain ⟨encounter, hencounter, hrefused⟩ := List.exists_of_findSome?_eq_some hrefusal
      obtain ⟨condition, hcondition, haggregation, rfl⟩ | ⟨field, hfield, rfl⟩ :=
        encounter_cases (references_resolve hparse hvalid) hencounter
      · obtain rfl := Option.some.inj hrefused
        obtain ⟨source, hsource⟩ := conditions_parsed hparse condition hcondition
        exact .aggregation hcondition haggregation
          (Condition.bar_mem_source hsource haggregation)
      · rw [Renaming.refusal?] at hrefused
        split at hrefused
        · next hmissing =>
          obtain rfl := Option.some.inj hrefused
          obtain ⟨hstrict, hmissing⟩ := Bool.and_eq_true_iff.mp hmissing
          exact .unmapped hstrict hfield (Option.isNone_iff_eq_none.mp hmissing)
        · cases hrefused
    · cases hconvert

/-- A rule with a plain condition and one with an aggregation. -/
def countedRule : String :=
  "title: t\ndetection:\n  s: {a: 1}\n  condition: [1 of s*, s | count() > 5]\n"

theorem convert_outcome_countedRule : ∃ rule, (∃ text, parse text = .ok rule) ∧
    rule.isValid = true ∧ rule.Outcome ∅ true (rule.convert ∅ true) ∧
    (∃ condition ∈ rule.detection.conditions, condition.aggregation.isSome = true) ∧
    ∃ cause, rule.convert ∅ false = .error cause := by
  have hrule : passes countedRule (fun rule => rule.isValid &&
      rule.detection.conditions.any fun condition => condition.aggregation.isSome) = true := by
    decide +kernel
  obtain ⟨rule, hparse, hcheck⟩ := exists_of_passes hrule
  obtain ⟨hvalid, haggregation⟩ := Bool.and_eq_true_iff.mp hcheck
  rw [List.any_eq_true] at haggregation
  exact ⟨rule, ⟨countedRule, hparse⟩, hvalid,
    (convert_outcome rule ∅ true).1 ⟨countedRule, hparse⟩ hvalid, haggregation,
    (convert_outcome rule ∅ false).2 haggregation⟩

end Rule

end SigmaCatalog
