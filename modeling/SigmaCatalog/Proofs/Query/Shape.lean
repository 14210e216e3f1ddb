import SigmaCatalog.Proofs.Query.Course
import SigmaCatalog.Proofs.Rule.Detection

/-!
# The shape of converted clauses

A group of a converted clause is made by `Clause.join`, so it has at least two operands unless
nothing was there to join.  A detection block whose lists are all non-empty leaves nothing empty to
join, and neither do the expressions that the reader of conditions builds.

The leaves of a converted clause all come from values of the block.
-/

namespace SigmaCatalog.Query

namespace Clause

variable {α β : Type}

/-! ## Leaves -/

mutual

/-- The leaves of a clause, from left to right. -/
def leaves : Clause α → List α
  | .leaf test => [test]
  | .not operand => operand.leaves
  | .group _ operands => leavesOfAll operands

def leavesOfAll : List (Clause α) → List α
  | [] => []
  | clause :: clauses => clause.leaves ++ leavesOfAll clauses

end

theorem leavesOfAll_eq_flatMap (clauses : List (Clause α)) :
    leavesOfAll clauses = clauses.flatMap leaves := by
  induction clauses with
  | nil => rfl
  | cons clause clauses ih => rw [leavesOfAll, ih, List.flatMap_cons]

theorem leaves_group (joint : Joint) (clauses : List (Clause α)) :
    (group joint clauses).leaves = clauses.flatMap leaves := by
  rw [leaves, leavesOfAll_eq_flatMap]

theorem leaves_join (joint : Joint) (clauses : List (Clause α)) :
    (join joint clauses).leaves = clauses.flatMap leaves := by
  unfold join
  split
  · exact (List.flatMap_singleton leaves _).symm
  · exact leaves_group joint clauses

mutual

theorem leaves_map (f : α → β) (clause : Clause α) :
    (clause.map f).leaves = clause.leaves.map f := by
  match clause with
  | .leaf test => rfl
  | .not operand => rw [map, leaves, leaves, leaves_map f operand]
  | .group joint operands => rw [map, leaves, leaves, leavesOfAll_mapAll f operands]

theorem leavesOfAll_mapAll (f : α → β) (clauses : List (Clause α)) :
    leavesOfAll (mapAll f clauses) = (leavesOfAll clauses).map f := by
  match clauses with
  | [] => rfl
  | clause :: clauses =>
    rw [mapAll, leavesOfAll, leavesOfAll, leaves_map f clause, leavesOfAll_mapAll f clauses,
      List.map_append]

end

/-! ## Groups -/

/-- A clause in which every group has at least two operands. -/
inductive Grouped : Clause α → Prop
  | leaf (test : α) : Grouped (.leaf test)
  | not {operand : Clause α} : Grouped operand → Grouped (.not operand)
  | group {joint : Joint} {operands : List (Clause α)} :
    2 ≤ operands.length → (∀ operand ∈ operands, Grouped operand) →
      Grouped (.group joint operands)

/-- Clauses of which there is at least one make a clause with the same shape. -/
theorem Grouped.join {joint : Joint} {clauses : List (Clause α)} (hne : clauses ≠ [])
    (h : ∀ clause ∈ clauses, clause.Grouped) : (join joint clauses).Grouped := by
  match clauses with
  | [] => exact absurd rfl hne
  | [clause] => exact h clause (List.mem_singleton_self clause)
  | first :: second :: others => exact .group (by simp) h

theorem mapAll_eq_map (f : α → β) (clauses : List (Clause α)) :
    mapAll f clauses = clauses.map (map f) := by
  induction clauses with
  | nil => rfl
  | cons clause clauses ih => rw [mapAll, ih, List.map_cons]

theorem Grouped.map (f : α → β) {clause : Clause α} (h : clause.Grouped) :
    (clause.map f).Grouped := by
  induction h with
  | leaf test => exact .leaf (f test)
  | not _ ih => exact .not ih
  | group hlength _ ih =>
    rw [Clause.map, mapAll_eq_map]
    exact .group (by rwa [List.length_map]) (List.forall_mem_map.mpr ih)

end Clause

/-! ## Clauses of full blocks are grouped -/

section Shape

variable (newName : String → String)

theorem valueClause_grouped (field : String) (item : DetectionItem) (value : DetectionValue) :
    (valueClause field item value).Grouped := by
  unfold valueClause
  split
  · split
    · exact .not (.leaf _)
    · exact .leaf _
  · cases value with
    | null => exact .not (.leaf _)
    | _ => exact .leaf _

theorem itemClause_grouped (field : String) {item : DetectionItem} (h : item.values ≠ []) :
    (itemClause field item).Grouped := by
  refine Clause.Grouped.join (by simpa using h) ?_
  exact List.forall_mem_map.mpr fun value _ => valueClause_grouped field item value

theorem itemsClause_grouped {items : List DetectionItem} (hne : items ≠ [])
    (h : ∀ item ∈ items, item.values ≠ []) : (itemsClause newName items).Grouped := by
  refine Clause.Grouped.join (by simpa using hne) ?_
  exact List.forall_mem_map.mpr fun item hitem => itemClause_grouped _ (h item hitem)

theorem bodyClause_grouped {body : SearchIdentifier} (h : body.IsFull) :
    (bodyClause newName body).Grouped := by
  cases body with
  | allOf items => exact itemsClause_grouped newName h.1 h.2
  | anyOf groups =>
    refine Clause.Grouped.join (by simpa using h.1) ?_
    exact List.forall_mem_map.mpr fun group hgroup =>
      itemsClause_grouped newName (h.2 group hgroup).1 (h.2 group hgroup).2
  | keywords values =>
    refine Clause.Grouped.join (mt List.map_eq_nil_iff.mp h) ?_
    exact List.forall_mem_map.mpr fun value _ => .leaf _

variable {detection : Detection}

theorem nameClause_grouped (hfull : detection.IsFull) {name : String}
    (h : (detection.find? name).isSome) : (nameClause newName detection name).Grouped := by
  obtain ⟨body, hbody⟩ := Option.isSome_iff_exists.mp h
  rw [nameClause, hbody]
  exact bodyClause_grouped newName (hfull _ (Detection.mem_of_find? hbody))

/-- A reference meets an obstacle exactly when it stands for nothing that is declared. -/
theorem resolves_of_no_obstacle {reference : Condition.Reference}
    (h : ∀ cause, Encounter.obstacle cause ∉ referenceEncounters detection reference) :
    detection.Resolves reference := by
  cases reference with
  | identifier name =>
    cases hbody : detection.find? name with
    | some body => simp [Detection.Resolves, hbody]
    | none => simp [referenceEncounters, nameEncounters, hbody] at h
  | selection pattern =>
    cases hnames : pattern.expand detection.names with
    | cons name names => simp [Detection.Resolves, hnames]
    | nil => simp [referenceEncounters, hnames] at h

theorem selectionClause_grouped (hfull : detection.IsFull) {joint : Joint} {pattern : NamePattern}
    (h : pattern.expand detection.names ≠ []) :
    (Clause.join joint
      ((pattern.expand detection.names).map (nameClause newName detection))).Grouped := by
  refine Clause.Grouped.join (by simpa using h) ?_
  refine List.forall_mem_map.mpr fun name hname => nameClause_grouped newName hfull ?_
  exact Detection.find?_isSome_of_mem (NamePattern.expand_subset hname)

theorem references_subset {operands : List Condition.Expr} {operand : Condition.Expr}
    (h : operand ∈ operands) :
    operand.references ⊆ Condition.Expr.listReferences operands := by
  induction operands with
  | nil => cases h
  | cons first operands ih =>
    rw [Condition.Expr.listReferences]
    cases h with
    | head => exact List.subset_append_left _ _
    | tail _ h => exact List.subset_append_of_subset_right _ (ih h)

/-- The clause of a proper expression whose references resolve is grouped, where the block is
full. -/
theorem exprClause_grouped (hfull : detection.IsFull) {expr : Condition.Expr}
    (hproper : expr.Proper) (h : ∀ reference ∈ expr.references, detection.Resolves reference) :
    (exprClause newName detection expr).Grouped := by
  induction hproper with
  | identifier name =>
    exact nameClause_grouped newName hfull (h (.identifier name) (List.mem_singleton_self _))
  | not _ ih => exact .not (ih h)
  | and hlength _ ih | or hlength _ ih =>
    rw [exprClause, exprClauses_eq_map]
    refine Clause.Grouped.join ?_ (List.forall_mem_map.mpr ?_)
    · intro hnil
      rw [List.map_eq_nil_iff.mp hnil] at hlength
      simp at hlength
    · intro operand hoperand
      exact ih operand hoperand fun reference hreference =>
        h reference (references_subset hoperand hreference)
  | oneOf pattern | allOf pattern =>
    exact selectionClause_grouped newName hfull
      (h (.selection pattern) (List.mem_singleton_self _))

/-- Where a conversion succeeds, the references of its conditions resolve. -/
theorem resolves_of_conversion {naming : Renaming} {conversion : Conversion}
    (h : Conversion.ofDetection detection naming = .ok conversion) {condition : Condition}
    (hcondition : condition ∈ detection.conditions) :
    ∀ reference ∈ condition.expr.references, detection.Resolves reference := by
  intro reference hreference
  refine resolves_of_no_obstacle fun cause hcause => ?_
  have hsubset : ∀ encounter ∈ conditionEncounters detection condition,
      encounter ∈ encountersIn detection detection.conditions :=
    fun encounter hmem => List.mem_flatMap.mpr ⟨condition, hcondition, hmem⟩
  unfold conditionEncounters at hsubset
  split at hsubset
  · exact no_obstacle_of_conversion h _ (hsubset _ (List.mem_singleton_self _))
  · exact no_obstacle_of_conversion h cause
      (hsubset _ (List.mem_flatMap.mpr ⟨reference, hreference, hcause⟩))

/-- The clauses of a full block whose conditions were read are grouped. -/
theorem grouped_of_conversion {naming : Renaming} {conversion : Conversion}
    (hfull : detection.IsFull)
    (h : Conversion.ofDetection detection naming = .ok conversion) {condition : Condition}
    (hcondition : condition ∈ detection.conditions)
    (hparsed : ∃ source, Condition.parse source = .ok condition) :
    (exprClause naming.newName detection condition.expr).Grouped := by
  obtain ⟨source, hsource⟩ := hparsed
  exact exprClause_grouped naming.newName hfull (Condition.proper_of_parse hsource)
    (resolves_of_conversion h hcondition)

/-! ## Where the leaves come from -/

variable {newName} {property : Leaf → Prop}

theorem nameClause_leaves
    (h : ∀ entry ∈ detection.identifiers, ∀ leaf ∈ (bodyClause newName entry.2).leaves,
      property leaf) (name : String) :
    ∀ leaf ∈ (nameClause newName detection name).leaves, property leaf := by
  intro leaf hleaf
  unfold nameClause at hleaf
  split at hleaf
  · next body hbody => exact h _ (Detection.mem_of_find? hbody) leaf hleaf
  · simp [Clause.leaves_join] at hleaf

mutual

/-- A property of the leaves of all search identifiers is one of the leaves of an expression. -/
theorem exprClause_leaves
    (h : ∀ entry ∈ detection.identifiers, ∀ leaf ∈ (bodyClause newName entry.2).leaves,
      property leaf) (expr : Condition.Expr) :
    ∀ leaf ∈ (exprClause newName detection expr).leaves, property leaf := by
  match expr with
  | .identifier name => exact nameClause_leaves h name
  | .not operand => exact exprClause_leaves h operand
  | .and operands | .or operands =>
    rw [exprClause, Clause.leaves_join]
    exact exprClauses_leaves h operands
  | .oneOf pattern | .allOf pattern =>
    rw [exprClause, Clause.leaves_join]
    intro leaf hleaf
    obtain ⟨clause, hclause, hleaf⟩ := List.mem_flatMap.mp hleaf
    obtain ⟨name, -, rfl⟩ := List.mem_map.mp hclause
    exact nameClause_leaves h name leaf hleaf

theorem exprClauses_leaves
    (h : ∀ entry ∈ detection.identifiers, ∀ leaf ∈ (bodyClause newName entry.2).leaves,
      property leaf) (operands : List Condition.Expr) :
    ∀ leaf ∈ (exprClauses newName detection operands).flatMap Clause.leaves, property leaf := by
  match operands with
  | [] => exact List.forall_mem_nil _
  | operand :: operands =>
    rw [exprClauses, List.flatMap_cons]
    intro leaf hleaf
    cases List.mem_append.mp hleaf with
    | inl hfirst => exact exprClause_leaves h operand leaf hfirst
    | inr hothers => exact exprClauses_leaves h operands leaf hothers

end

end Shape

end SigmaCatalog.Query
