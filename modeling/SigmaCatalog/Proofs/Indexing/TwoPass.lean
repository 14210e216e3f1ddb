import Mathlib.Data.List.Basic
import SigmaCatalog.Indexing.TwoPass
import SigmaCatalog.Proofs.Query.Outcome
import SigmaCatalog.Proofs.Table

/-!
# The second pass after the first

With the identity resolver the two passes see the same conditions under the same names; they differ
in what they refuse.  The first pass refuses aggregations only, the second one also fields that the
first did not discover.  So a success is repeated, and a rule that is at fault is refused for the
same reasons.

An aggregation stops the first pass before it has discovered anything.  The second pass then knows
no field at all and stops at the first field that it meets before the aggregation, if there is one.
-/

namespace SigmaCatalog

open Query

/-! ## What a compilation comes to -/

section Compilation

variable {text : String} {rule : Rule} {table : Table String} {strict : Bool}

theorem compile_of_unreadable {cause : Rule.ParseError} (h : Rule.parse text = .error cause) :
    compile text table strict = .error (.unreadable cause) := by
  unfold compile
  rw [h]
  rfl

theorem compile_of_invalid (h : Rule.parse text = .ok rule) (hvalid : rule.isValid = false) :
    compile text table strict = .error (.invalid rule.problems) := by
  unfold compile
  simp only [h, Except.mapError, bind, Except.bind, hvalid, Bool.not_false, if_true]
  rfl

/-- A valid rule compiles unless its renaming refuses something that its conditions meet. -/
theorem compile_of_valid (h : Rule.parse text = .ok rule) (hvalid : rule.isValid = true) :
    compile text table strict =
      match (encountersIn rule.detection rule.detection.conditions).findSome?
          (Renaming.refusal? ⟨table, strict⟩) with
      | some cause => .error (.ofConversion cause)
      | none => .ok {
          rule
          queries := rule.detection.conditions.map fun condition =>
            (exprClause (Renaming.newName ⟨table, strict⟩) rule.detection condition.expr).text
              Leaf.text
          fields := noteAll (encountersIn rule.detection rule.detection.conditions) [] } := by
  unfold compile
  simp only [h, Except.mapError, bind, Except.bind, hvalid, Bool.not_true, Bool.false_eq_true,
    if_false, Rule.convert_eq]
  cases (encountersIn rule.detection rule.detection.conditions).findSome?
    (Renaming.refusal? ⟨table, strict⟩) with
  | some cause => rfl
  | none =>
    simp only [Conversion.queries, List.map_map]
    rfl

end Compilation

/-! ## Blank categories -/

namespace Text

/-- Trimming leaves something of a text that is not blank. -/
theorem trim_ne_empty {text : String} (h : isBlankText text = false) : trim text ≠ "" := by
  obtain ⟨c, hc, hvisible⟩ := List.all_eq_false.mp h
  have hmem : c ∈ trimChars text.toList := mem_trimChars hc (by simpa using hvisible)
  intro hempty
  rw [trim, String.ofList_eq_empty_iff] at hempty
  exact List.ne_nil_of_mem hmem hempty

end Text

/-! ## The two passes -/

/-- Why the second pass fails when the first one was stopped by an aggregation. -/
def strictCause (detection : Detection) (before : List Condition) (refused : Condition) :
    CompileError :=
  match ({ detection with conditions := before } : Detection).consultedFields with
  | field :: _ => .unmappedField field
  | [] => .unsupportedCondition refused.source

namespace Toolchain

variable {text category : String}

def previewRequest (text category : String) : IndexRequest :=
  .make text category false .none

theorem validate_previewRequest (h : Text.isBlankText category = false) :
    (previewRequest text category).validate = .ok () := by
  have hne : (Text.lowerAscii (Text.trim category)).isEmpty = false := by
    rw [Bool.eq_false_iff, ne_eq, String.isEmpty_iff, Text.lowerAscii, String.ofList_eq_empty_iff,
      List.map_eq_nil_iff, String.toList_eq_nil_iff]
    exact Text.trim_ne_empty h
  rw [IndexRequest.validate, previewRequest, IndexRequest.make, hne]
  rfl

theorem preview_outcome (hcategory : Text.isBlankText category = false) :
    (standard.preview text category).outcome =
      match (standard.discover (previewRequest text category)).outcome with
      | none => none
      | some (.error cause) => some (.error cause)
      | some (.ok fields) =>
        match compile text (Resolver.identity fields) true with
        | .ok artifact => some (.ok (compiledRule (previewRequest text category) artifact))
        | .error cause =>
          some (.error (.ofCompile (previewRequest text category).category cause)) := by
  have hvalid := @validate_previewRequest text category hcategory
  unfold previewRequest at hvalid ⊢
  rw [preview]
  simp only [hvalid, compileTwice, Pass.followedBy]
  cases (standard.discover (IndexRequest.make text category false .none)).outcome with
  | none => rfl
  | some discovered =>
    cases discovered with
    | error cause => rfl
    | ok fields =>
      simp only [compileStrictly, standard, standardCompiler, IndexRequest.make]
      cases compile text (Resolver.identity fields) true with
      | error cause => rfl
      | ok artifact => rfl

theorem discover_outcome :
    (standard.discover (previewRequest text category)).outcome =
      match compile text ∅ false with
      | .ok artifact => some (.ok artifact.fields)
      | .error cause =>
        if cause.blamesRule then
          some (.error (.ofCompile (previewRequest text category).category cause))
        else some (.ok []) := by
  simp only [discover, standard, standardCompiler, previewRequest, IndexRequest.make]
  cases compile text ∅ false with
  | ok artifact => rfl
  | error cause =>
    by_cases hblames : cause.blamesRule = true
    · simp [hblames]
    · simp [hblames]

/-- What the first pass compiles, the second one compiles to the same queries and fields. -/
theorem compile_again {artifact : Artifact} (h : compile text ∅ false = .ok artifact) :
    compile text (Resolver.identity artifact.fields) true = .ok artifact := by
  cases hparse : Rule.parse text with
  | error cause =>
    rw [compile_of_unreadable hparse] at h
    cases h
  | ok rule =>
    cases hvalid : rule.isValid with
    | false =>
      rw [compile_of_invalid hparse hvalid] at h
      cases h
    | true =>
      rw [compile_of_valid hparse hvalid] at h
      split at h
      · cases h
      · next hmet =>
        obtain rfl := Except.ok.inj h
        have hnames : ∀ fields, Renaming.newName ⟨Resolver.identity fields, true⟩ =
            Renaming.newName ⟨∅, false⟩ := by
          intro fields
          funext field
          rw [Renaming.newName, Resolver.get?_identity]
          split
          · rfl
          · rfl
        have hmet' : (encountersIn rule.detection rule.detection.conditions).findSome?
            (Renaming.refusal? ⟨Resolver.identity
              (noteAll (encountersIn rule.detection rule.detection.conditions) []), true⟩) =
            none := by
          refine List.findSome?_eq_none_iff.mpr fun encounter hencounter => ?_
          cases encounter with
          | obstacle cause => cases List.findSome?_eq_none_iff.mp hmet _ hencounter
          | field field =>
            rw [Renaming.refusal?, Resolver.get?_identity,
              if_pos (mem_noteAll.mpr (.inl hencounter))]
            rfl
        rw [compile_of_valid hparse hvalid, hmet', hnames]

/-- A valid rule that the first pass refuses has an aggregation in one of its conditions, and the
second pass knows no field. -/
theorem compile_of_refused {cause : CompileError} (h : compile text ∅ false = .error cause)
    (hblames : cause.blamesRule = false) :
    ∃ rule before refused after,
      Rule.parse text = .ok rule ∧ rule.isValid = true ∧
      rule.detection.conditions = before ++ refused :: after ∧
      (∀ condition ∈ before, condition.aggregation = none) ∧
      refused.aggregation.isSome = true ∧
      cause = .unsupportedCondition refused.source ∧
      compile text (Resolver.identity []) true =
        .error (strictCause rule.detection before refused) := by
  cases hparse : Rule.parse text with
  | error unreadable =>
    rw [compile_of_unreadable hparse] at h
    obtain rfl := Except.error.inj h
    cases hblames
  | ok rule =>
    cases hvalid : rule.isValid with
    | false =>
      rw [compile_of_invalid hparse hvalid] at h
      obtain rfl := Except.error.inj h
      cases hblames
    | true =>
      have hresolves := Rule.references_resolve hparse hvalid
      rw [compile_of_valid hparse hvalid] at h
      cases hfind : rule.detection.conditions.find? fun condition =>
          condition.aggregation.isSome with
      | none =>
        -- Without an aggregation the first pass refuses nothing.
        have hplain : ∀ condition ∈ rule.detection.conditions, condition.aggregation = none := by
          simpa using List.find?_eq_none.mp hfind
        rw [encountersIn_of_plain hplain hresolves, List.findSome?_map,
          lenient_refusal] at h
        cases h
      | some refused =>
        obtain ⟨hrefused, before, after, hconditions, hbefore⟩ :=
          List.find?_eq_some_iff_append.mp hfind
        have hplain : ∀ condition ∈ before, condition.aggregation = none := by
          simpa using hbefore
        have hresolves' : ∀ condition ∈ before, ∀ reference ∈ condition.expr.references,
            rule.detection.Resolves reference :=
          fun condition hmem => hresolves condition (by simp [hconditions, hmem])
        rw [hconditions, refusal_of_aggregation hplain hrefused hresolves', lenient_refusal] at h
        refine ⟨rule, before, refused, after, rfl, hvalid, hconditions, hplain, hrefused,
          (Except.error.inj h).symm, ?_⟩
        rw [compile_of_valid hparse hvalid, hconditions,
          refusal_of_aggregation hplain hrefused hresolves', strictCause]
        cases ({ rule.detection with conditions := before } : Detection).consultedFields with
        | nil => rfl
        | cons field fields => rfl

/-- The outcome of compiling twice, given the outcome of the first pass. -/
theorem preview_of_compile {first : Except CompileError Artifact}
    (hcategory : Text.isBlankText category = false) (hfirst : compile text ∅ false = first) :
    match first with
    | .ok artifact => (standard.preview text category).outcome =
        some (.ok (compiledRule (previewRequest text category) artifact))
    | .error cause =>
      (cause.blamesRule = true ∧ (standard.preview text category).outcome =
        some (.error (.ofCompile (previewRequest text category).category cause))) ∨
      ∃ rule before refused after,
        Rule.parse text = .ok rule ∧ rule.isValid = true ∧
        rule.detection.conditions = before ++ refused :: after ∧
        (∀ condition ∈ before, condition.aggregation = none) ∧
        refused.aggregation.isSome = true ∧
        cause = .unsupportedCondition refused.source ∧
        (standard.preview text category).outcome =
          some (.error (.ofCompile (previewRequest text category).category
            (strictCause rule.detection before refused))) := by
  have hpreview := @preview_outcome text category hcategory
  rw [discover_outcome, hfirst] at hpreview
  cases first with
  | ok artifact => simpa only [compile_again hfirst] using hpreview
  | error cause =>
    cases hblames : cause.blamesRule with
    | true =>
      simp only [hblames, if_true] at hpreview
      exact .inl ⟨hblames, hpreview⟩
    | false =>
      obtain ⟨rule, before, refused, after, hparse, hvalid, hconditions, hplain, hrefused, hcause,
        hstrict⟩ := compile_of_refused hfirst hblames
      refine .inr ⟨rule, before, refused, after, hparse, hvalid, hconditions, hplain, hrefused,
        hcause, ?_⟩
      simpa only [hblames, hstrict, Bool.false_eq_true, if_false] using hpreview

/-- A rule with an aggregation in its second condition. -/
def lateAggregationRule : String :=
  "title: t\ndetection:\n  sel:\n    a: 1\n  condition:\n  - sel\n  - sel | count() > 5\n"

theorem compile_lateAggregationRule :
    compile lateAggregationRule ∅ false =
      .error (.unsupportedCondition "sel | count() > 5") := by
  have h : (compile lateAggregationRule ∅ false).map Artifact.fields =
      .error (.unsupportedCondition "sel | count() > 5") := by
    decide +kernel
  exact error_of_map h

/-- The passes may fail for different reasons. -/
theorem preview_error_differs :
    ¬ ∀ (text category : String) (cause : CompileError), Text.isBlankText category = false →
      compile text ∅ false = .error cause →
      (standard.preview text category).outcome =
        some (.error (.ofCompile (previewRequest text category).category cause)) := by
  intro hall
  have hcategory : Text.isBlankText "c" = false := by decide
  have hstrict : (compile lateAggregationRule (Resolver.identity []) true).map Artifact.fields =
      .error (.unmappedField "a") := by
    decide +kernel
  have hpreview : (standard.preview lateAggregationRule "c").outcome =
      some (.error (.uncompilable (previewRequest lateAggregationRule "c").category
        (.unmappedField "a"))) := by
    rw [preview_outcome hcategory, discover_outcome, compile_lateAggregationRule]
    simp only [CompileError.blamesRule, Bool.false_eq_true, if_false, error_of_map hstrict]
    rfl
  rw [hall lateAggregationRule "c" _ hcategory compile_lateAggregationRule] at hpreview
  simp only [IndexError.ofCompile, Option.some.injEq, Except.error.injEq,
    IndexError.uncompilable.injEq, reduceCtorEq, and_false] at hpreview

theorem preview_lateAggregationRule : Text.isBlankText "c" = false ∧
    ∃ rule before refused after, Rule.parse lateAggregationRule = .ok rule ∧
      rule.detection.conditions = before ++ refused :: after ∧
      (standard.preview lateAggregationRule "c").outcome =
        some (.error (.ofCompile (previewRequest lateAggregationRule "c").category
          (strictCause rule.detection before refused))) := by
  have hcategory : Text.isBlankText "c" = false := by decide
  obtain ⟨hblames, -⟩ | ⟨rule, before, refused, after, hparse, -, hconditions, -, -, -, houtcome⟩ :=
    preview_of_compile hcategory compile_lateAggregationRule
  · cases hblames
  · exact ⟨hcategory, rule, before, refused, after, hparse, hconditions, houtcome⟩

end Toolchain

end SigmaCatalog
