import Mathlib.Data.List.Forall2
import Mathlib.Data.List.Nodup
import SigmaCatalog.Proofs.Query.Shape
import SigmaCatalog.Proofs.Query.Truth
import SigmaCatalog.Query.Selection

/-!
# Where a query selects what its condition says

In a group joined by `OR`, a negated operand forbids where the condition means an alternative.  A
clause in which no such operand occurs selects exactly the documents on which its condition holds.

Otherwise some document tells the two apart, provided that the leaves of the clause can take their
values independently of one another.  To find it, the negated alternative is made true, every other
operand of its group false, and every group around it is given the values that let the difference
through.
-/

namespace SigmaCatalog.Query

namespace Clause

variable {α β : Type}

theorem all_congr_of_mem {f g : α → Bool} {xs : List α} (h : ∀ x ∈ xs, f x = g x) :
    xs.all f = xs.all g := by
  rw [Bool.eq_iff_iff, List.all_eq_true, List.all_eq_true]
  exact forall₂_congr fun x hx => by rw [h x hx]

theorem any_congr_of_mem {f g : α → Bool} {xs : List α} (h : ∀ x ∈ xs, f x = g x) :
    xs.any f = xs.any g := by
  rw [Bool.eq_iff_iff, List.any_eq_true, List.any_eq_true]
  exact exists_congr fun x => and_congr_right fun hx => by rw [h x hx]

theorem all_eq_of_forall_mem {f : α → Bool} {value : Bool} {xs : List α} (hne : xs ≠ [])
    (h : ∀ x ∈ xs, f x = value) : xs.all f = value := by
  obtain ⟨x, hx⟩ := List.exists_mem_of_ne_nil xs hne
  cases value with
  | true => exact List.all_eq_true.mpr h
  | false => exact List.all_eq_false.mpr ⟨x, hx, by simp [h x hx]⟩

theorem any_eq_of_forall_mem {f : α → Bool} {value : Bool} {xs : List α} (hne : xs ≠ [])
    (h : ∀ x ∈ xs, f x = value) : xs.any f = value := by
  obtain ⟨x, hx⟩ := List.exists_mem_of_ne_nil xs hne
  cases value with
  | true => exact List.any_eq_true.mpr ⟨x, hx, h x hx⟩
  | false => exact List.any_eq_false.mpr fun x hx => by simp [h x hx]

/-! ## Groups, read as lists -/

section Lists

variable (truth : α → Bool)

theorem allSelect_eq_all (operands : List (Clause α)) :
    allSelect truth operands = operands.all (selects truth) := by
  induction operands with
  | nil => rfl
  | cons operand operands ih => rw [allSelect, ih, List.all_cons]

theorem noneForbids_eq_all (operands : List (Clause α)) :
    noneForbids truth operands =
      operands.all fun operand => !operand.isProhibited || operand.selects truth := by
  induction operands with
  | nil => rfl
  | cons operand operands ih =>
    cases operand with
    | _ => simp [noneForbids, ih, isProhibited, selects]

theorem someSelects_eq_any (operands : List (Clause α)) :
    someSelects truth operands =
      operands.any fun operand => !operand.isProhibited && operand.selects truth := by
  induction operands with
  | nil => rfl
  | cons operand operands ih =>
    cases operand with
    | _ => simp [someSelects, ih, isProhibited]

theorem selects_all (operands : List (Clause α)) :
    (group .all operands).selects truth = operands.all (selects truth) := by
  rw [selects, allSelect_eq_all]

theorem selects_any (operands : List (Clause α)) :
    (group .any operands).selects truth =
      ((operands.all fun operand => !operand.isProhibited || operand.selects truth) &&
        (operands.all isProhibited ||
          operands.any fun operand => !operand.isProhibited && operand.selects truth)) := by
  rw [selects, noneForbids_eq_all, someSelects_eq_any]

theorem holds_all (operands : List (Clause α)) :
    (group .all operands).holds truth = operands.all (holds truth) := by
  rw [holds, allHold_eq_all]

theorem holds_any (operands : List (Clause α)) :
    (group .any operands).holds truth = operands.any (holds truth) := by
  rw [holds, anyHolds_eq_any]

/-- A group of alternatives none of which is negated selects what some operand selects. -/
theorem selects_any_of_plain {operands : List (Clause α)} (hne : operands ≠ [])
    (h : ∀ operand ∈ operands, operand.isProhibited = false) :
    (group .any operands).selects truth = operands.any (selects truth) := by
  have hforbids : (operands.all fun operand =>
      !operand.isProhibited || operand.selects truth) = true :=
    List.all_eq_true.mpr fun operand hmem => by simp [h operand hmem]
  have hall : operands.all isProhibited = false := by
    obtain ⟨operand, hmem⟩ := List.exists_mem_of_ne_nil operands hne
    exact List.all_eq_false.mpr ⟨operand, hmem, by simp [h operand hmem]⟩
  have hany : (operands.any fun operand => !operand.isProhibited && operand.selects truth) =
      operands.any (selects truth) :=
    any_congr_of_mem fun operand hmem => by rw [h operand hmem, Bool.not_false, Bool.true_and]
  rw [selects_any, hforbids, hall, hany, Bool.true_and, Bool.false_or]

/-- A group of alternatives all of which select, selects. -/
theorem selects_any_of_all {operands : List (Clause α)}
    (h : ∀ operand ∈ operands, operand.selects truth = true) :
    (group .any operands).selects truth = true := by
  have hforbids : (operands.all fun operand =>
      !operand.isProhibited || operand.selects truth) = true :=
    List.all_eq_true.mpr fun operand hmem => by simp [h operand hmem]
  rw [selects_any, hforbids, Bool.true_and]
  cases hall : operands.all isProhibited with
  | true => rfl
  | false =>
    obtain ⟨operand, hmem, hplain⟩ := List.all_eq_false.mp hall
    exact List.any_eq_true.mpr ⟨operand, hmem, by simpa [h operand hmem] using hplain⟩

/-- A negated operand that does not select forbids its whole group. -/
theorem selects_any_of_forbids {operands : List (Clause α)} {operand : Clause α}
    (hmem : operand ∈ operands) (hprohibited : operand.isProhibited = true)
    (h : operand.selects truth = false) : (group .any operands).selects truth = false := by
  have hforbids : (operands.all fun operand =>
      !operand.isProhibited || operand.selects truth) = false :=
    List.all_eq_false.mpr ⟨operand, hmem, by simp [hprohibited, h]⟩
  rw [selects_any, hforbids, Bool.false_and]

end Lists

/-! ## Negated alternatives -/

mutual

/-- Whether a group joined by `OR` somewhere in the clause has a negated operand. -/
def negatesAlternative : Clause α → Bool
  | .leaf _ => false
  | .not operand => operand.negatesAlternative
  | .group .all operands => someNegates operands
  | .group .any operands => operands.any isProhibited || someNegates operands

def someNegates : List (Clause α) → Bool
  | [] => false
  | clause :: clauses => clause.negatesAlternative || someNegates clauses

end

theorem someNegates_eq_any (clauses : List (Clause α)) :
    someNegates clauses = clauses.any negatesAlternative := by
  induction clauses with
  | nil => rfl
  | cons clause clauses ih => rw [someNegates, ih, List.any_cons]

theorem negatesAlternative_group {joint : Joint} {operands : List (Clause α)} :
    (group joint operands).negatesAlternative = true ↔
      (joint = .any ∧ ∃ operand ∈ operands, operand.isProhibited = true) ∨
        ∃ operand ∈ operands, operand.negatesAlternative = true := by
  cases joint with
  | _ => simp [negatesAlternative, someNegates_eq_any]

/-- A clause without negated alternatives selects exactly where it holds. -/
theorem Grouped.selects_eq_holds {clause : Clause α} (hgrouped : clause.Grouped)
    (h : clause.negatesAlternative = false) (truth : α → Bool) :
    clause.selects truth = clause.holds truth := by
  induction hgrouped with
  | leaf test => rfl
  | not _ ih => rw [selects, holds, ih h]
  | @group joint operands hlength _ ih =>
    have hne : operands ≠ [] := List.ne_nil_of_length_pos (by omega)
    have hnot := mt negatesAlternative_group.mpr (Bool.eq_false_iff.mp h)
    rw [not_or] at hnot
    have hoperand : ∀ operand ∈ operands, operand.selects truth = operand.holds truth :=
      fun operand hmem => ih operand hmem
        (Bool.eq_false_iff.mpr fun htrue => hnot.2 ⟨operand, hmem, htrue⟩)
    cases joint with
    | all =>
      rw [selects_all, holds_all]
      exact all_congr_of_mem hoperand
    | any =>
      have hplain : ∀ operand ∈ operands, operand.isProhibited = false :=
        fun operand hmem => Bool.eq_false_iff.mpr fun htrue => hnot.1 ⟨rfl, operand, hmem, htrue⟩
      rw [selects_any_of_plain truth hne hplain, holds_any]
      exact any_congr_of_mem hoperand

/-! ## Giving a clause a value -/

/-- Whether a clause has a value in both readings. -/
def Settles (truth : α → Bool) (value : Bool) (clause : Clause α) : Prop :=
  clause.selects truth = value ∧ clause.holds truth = value

/-- Both readings depend on the leaves alone. -/
theorem Grouped.readings_congr {clause : Clause α} (hgrouped : clause.Grouped)
    {truth other : α → Bool} (h : ∀ leaf ∈ clause.leaves, truth leaf = other leaf) :
    clause.selects truth = clause.selects other ∧ clause.holds truth = clause.holds other := by
  induction hgrouped with
  | leaf test =>
    have htest := h test (List.mem_singleton_self test)
    exact ⟨htest, htest⟩
  | not _ ih =>
    obtain ⟨hselects, hholds⟩ := ih h
    exact ⟨by rw [selects, selects, hselects], by rw [holds, holds, hholds]⟩
  | @group joint operands _ _ ih =>
    rw [leaves_group] at h
    have hoperand := fun operand hmem => ih operand hmem fun leaf hleaf =>
      h leaf (List.mem_flatMap.mpr ⟨operand, hmem, hleaf⟩)
    have hselects : ∀ operand ∈ operands, operand.selects truth = operand.selects other :=
      fun operand hmem => (hoperand operand hmem).1
    have hholds : operands.map (holds truth) = operands.map (holds other) :=
      List.map_congr_left fun operand hmem => (hoperand operand hmem).2
    refine ⟨?_, by rw [holds_group, holds_group, hholds]⟩
    cases joint with
    | all =>
      rw [selects_all, selects_all]
      exact all_congr_of_mem hselects
    | any =>
      have hforbids : ∀ operand ∈ operands,
          (!operand.isProhibited || operand.selects truth) =
            (!operand.isProhibited || operand.selects other) :=
        fun operand hmem => by rw [hselects operand hmem]
      have hoffers : ∀ operand ∈ operands,
          (!operand.isProhibited && operand.selects truth) =
            (!operand.isProhibited && operand.selects other) :=
        fun operand hmem => by rw [hselects operand hmem]
      rw [selects_any, selects_any, all_congr_of_mem hforbids, any_congr_of_mem hoffers]

theorem Settles.congr {truth other : α → Bool} {value : Bool} {clause : Clause α}
    (hsettles : Settles truth value clause) (hgrouped : clause.Grouped)
    (h : ∀ leaf ∈ clause.leaves, other leaf = truth leaf) : Settles other value clause := by
  obtain ⟨hselects, hholds⟩ := hgrouped.readings_congr h
  exact ⟨hselects.trans hsettles.1, hholds.trans hsettles.2⟩

/-- A group whose operands all have a value has it, too. -/
theorem settles_group {truth : α → Bool} {value : Bool} {joint : Joint}
    {operands : List (Clause α)} (hne : operands ≠ [])
    (h : ∀ operand ∈ operands, Settles truth value operand) :
    Settles truth value (group joint operands) := by
  have hselects : ∀ operand ∈ operands, operand.selects truth = value :=
    fun operand hmem => (h operand hmem).1
  have hholds : ∀ operand ∈ operands, operand.holds truth = value :=
    fun operand hmem => (h operand hmem).2
  cases joint with
  | all =>
    rw [Settles, selects_all, holds_all]
    exact ⟨all_eq_of_forall_mem hne hselects, all_eq_of_forall_mem hne hholds⟩
  | any =>
    rw [Settles, holds_any]
    refine ⟨?_, any_eq_of_forall_mem hne hholds⟩
    by_cases hplain : ∀ operand ∈ operands, operand.isProhibited = false
    · rw [selects_any_of_plain truth hne hplain]
      exact any_eq_of_forall_mem hne hselects
    · obtain ⟨negated, hnegated, hprohibited⟩ : ∃ operand ∈ operands,
          operand.isProhibited = true := by simpa using hplain
      cases value with
      | false =>
        exact selects_any_of_forbids truth hnegated hprohibited (hselects negated hnegated)
      | true => exact selects_any_of_all truth hselects

/-! ## Passing a difference on -/

/-- Where the readings of one operand differ, those of a group around it differ too, provided that
every other operand has the value that lets the difference through. -/
theorem group_differs {truth : α → Bool} {joint : Joint} {operand : Clause α}
    {before after : List (Clause α)}
    (hplain : joint = .any → ∀ other ∈ before ++ operand :: after, other.isProhibited = false)
    (hothers : ∀ other ∈ before ++ after, Settles truth (joint = .all) other)
    (h : operand.selects truth ≠ operand.holds truth) :
    (group joint (before ++ operand :: after)).selects truth ≠
      (group joint (before ++ operand :: after)).holds truth := by
  rw [List.forall_mem_append] at hothers
  obtain ⟨hbefore, hafter⟩ := hothers
  cases joint with
  | all =>
    simp only [decide_true] at hbefore hafter
    have hselects : (before ++ operand :: after).all (selects truth) = operand.selects truth := by
      rw [List.all_append, List.all_cons, List.all_eq_true.mpr fun other h => (hbefore other h).1,
        List.all_eq_true.mpr fun other h => (hafter other h).1, Bool.true_and, Bool.and_true]
    have hholds : (before ++ operand :: after).all (holds truth) = operand.holds truth := by
      rw [List.all_append, List.all_cons, List.all_eq_true.mpr fun other h => (hbefore other h).2,
        List.all_eq_true.mpr fun other h => (hafter other h).2, Bool.true_and, Bool.and_true]
    rw [selects_all, holds_all, hselects, hholds]
    exact h
  | any =>
    have hfalse : (decide (Joint.any = .all)) = false := rfl
    rw [hfalse] at hbefore hafter
    have hne : before ++ operand :: after ≠ [] := by simp
    have hselects : (before ++ operand :: after).any (selects truth) = operand.selects truth := by
      rw [List.any_append, List.any_cons,
        List.any_eq_false.mpr fun other h => by simp [(hbefore other h).1],
        List.any_eq_false.mpr fun other h => by simp [(hafter other h).1], Bool.false_or,
        Bool.or_false]
    have hholds : (before ++ operand :: after).any (holds truth) = operand.holds truth := by
      rw [List.any_append, List.any_cons,
        List.any_eq_false.mpr fun other h => by simp [(hbefore other h).2],
        List.any_eq_false.mpr fun other h => by simp [(hafter other h).2], Bool.false_or,
        Bool.or_false]
    rw [selects_any_of_plain truth hne (hplain rfl), holds_any, hselects, hholds]
    exact h

/-- A negated alternative that holds while no other alternative does: the group holds but selects
nothing. -/
theorem alternatives_differ {truth : α → Bool} {negated : Clause α}
    {before after : List (Clause α)} (hne : before ++ after ≠ [])
    (hprohibited : negated.isProhibited = true) (hnegated : Settles truth true negated)
    (hothers : ∀ other ∈ before ++ after, Settles truth false other) :
    (group .any (before ++ negated :: after)).selects truth ≠
      (group .any (before ++ negated :: after)).holds truth := by
  have hmem : ∀ other ∈ before ++ after, other ∈ before ++ negated :: after := by
    intro other hother
    rw [List.mem_append] at hother ⊢
    exact hother.imp_right (.tail negated)
  have hholds : (group .any (before ++ negated :: after)).holds truth = true := by
    rw [holds_any]
    exact List.any_eq_true.mpr ⟨negated, by simp, hnegated.2⟩
  have hselects : (group .any (before ++ negated :: after)).selects truth = false := by
    by_cases hplain : ∀ other ∈ before ++ after, other.isProhibited = false
    · -- No other alternative forbids anything, but none offers the document either.
      obtain ⟨other, hother⟩ := List.exists_mem_of_ne_nil _ hne
      have hall : (before ++ negated :: after).all isProhibited = false :=
        List.all_eq_false.mpr ⟨other, hmem other hother, by simp [hplain other hother]⟩
      have hany : ((before ++ negated :: after).any fun operand =>
          !operand.isProhibited && operand.selects truth) = false := by
        refine List.any_eq_false.mpr fun operand hoperand => ?_
        rw [List.mem_append, List.mem_cons, or_left_comm, ← List.mem_append] at hoperand
        obtain rfl | hoperand := hoperand
        · simp [hprohibited]
        · simp [(hothers operand hoperand).1]
      rw [selects_any, hall, hany, Bool.or_false, Bool.and_false]
    · obtain ⟨other, hother, hforbids⟩ : ∃ other ∈ before ++ after,
          other.isProhibited = true := by simpa using hplain
      exact selects_any_of_forbids truth (hmem other hother) hforbids (hothers other hother).1
  rw [hholds, hselects]
  exact Bool.false_ne_true

/-! ## Clauses with independent leaves -/

section Independent

variable [DecidableEq α]

/-- One assignment on some leaves and another one everywhere else. -/
def overlay (leaves : List α) (inside outside : α → Bool) (leaf : α) : Bool :=
  if leaf ∈ leaves then inside leaf else outside leaf

theorem overlay_inside {leaves : List α} {inside outside : α → Bool} :
    ∀ leaf ∈ leaves, overlay leaves inside outside leaf = inside leaf :=
  fun _ hleaf => if_pos hleaf

theorem overlay_outside {leaves others : List α} {inside outside : α → Bool}
    (h : ∀ leaf ∈ leaves, ∀ other ∈ others, leaf ≠ other) :
    ∀ leaf ∈ others, overlay leaves inside outside leaf = outside leaf :=
  fun leaf hleaf => if_neg fun hinside => h leaf hinside leaf hleaf rfl

/-- Clauses that share no leaf and can each be given a value can be given it together. -/
theorem exists_settling_together {value : Bool} {clauses : List (Clause α)}
    (hgrouped : ∀ clause ∈ clauses, clause.Grouped) (hnodup : (clauses.flatMap leaves).Nodup)
    (h : ∀ clause ∈ clauses, clause.leaves.Nodup → ∃ truth, Settles truth value clause) :
    ∃ truth, ∀ clause ∈ clauses, Settles truth value clause := by
  induction clauses with
  | nil => exact ⟨fun _ => value, List.forall_mem_nil _⟩
  | cons first others ih =>
    rw [List.flatMap_cons, List.nodup_append] at hnodup
    obtain ⟨hfirst, hothers, hdisjoint⟩ := hnodup
    obtain ⟨inside, hinside⟩ := h first List.mem_cons_self hfirst
    obtain ⟨outside, houtside⟩ := ih (fun clause hmem => hgrouped clause (.tail _ hmem)) hothers
      fun clause hmem => h clause (.tail _ hmem)
    refine ⟨overlay first.leaves inside outside, List.forall_mem_cons.mpr ⟨?_, ?_⟩⟩
    · exact hinside.congr (hgrouped first List.mem_cons_self) overlay_inside
    · intro clause hmem
      refine (houtside clause hmem).congr (hgrouped clause (.tail _ hmem)) fun leaf hleaf => ?_
      exact overlay_outside hdisjoint leaf (List.mem_flatMap.mpr ⟨clause, hmem, hleaf⟩)

/-- A clause in which no leaf occurs twice can be given any value. -/
theorem Grouped.exists_settling {clause : Clause α} (hgrouped : clause.Grouped)
    (hnodup : clause.leaves.Nodup) (value : Bool) : ∃ truth, Settles truth value clause := by
  induction hgrouped generalizing value with
  | leaf test => exact ⟨fun _ => value, rfl, rfl⟩
  | not _ ih =>
    obtain ⟨truth, hselects, hholds⟩ := ih hnodup !value
    exact ⟨truth, by rw [selects, hselects, Bool.not_not], by rw [holds, hholds, Bool.not_not]⟩
  | @group joint operands hlength hgrouped ih =>
    rw [leaves_group] at hnodup
    obtain ⟨truth, htruth⟩ := exists_settling_together hgrouped hnodup
      fun operand hmem hleaves => ih operand hmem hleaves value
    exact ⟨truth, settles_group (List.ne_nil_of_length_pos (by omega)) htruth⟩

/-- Clauses without common leaves can be given values one by one: one of them as it needs, the
others all the same value. -/
theorem exists_settling_around (value : Bool) {operand : Clause α}
    {before after : List (Clause α)}
    (hgrouped : ∀ other ∈ before ++ operand :: after, other.Grouped)
    (hnodup : ((before ++ operand :: after).flatMap leaves).Nodup) (inside : α → Bool) :
    ∃ truth, (∀ leaf ∈ operand.leaves, truth leaf = inside leaf) ∧
      ∀ other ∈ before ++ after, Settles truth value other := by
  rw [List.flatMap_append, List.flatMap_cons] at hnodup
  have hperm := List.perm_append_comm_assoc (before.flatMap leaves) operand.leaves
    (after.flatMap leaves)
  rw [hperm.nodup_iff, ← List.flatMap_append, List.nodup_append] at hnodup
  obtain ⟨-, hothers, hdisjoint⟩ := hnodup
  have hrest : ∀ other ∈ before ++ after, other.Grouped := by
    intro other hother
    rw [List.mem_append] at hother
    exact hgrouped other (List.mem_append.mpr (hother.imp_right (.tail operand)))
  obtain ⟨outside, houtside⟩ := exists_settling_together hrest hothers
    fun other hother hleaves => (hrest other hother).exists_settling hleaves value
  refine ⟨overlay operand.leaves inside outside, overlay_inside, fun other hother => ?_⟩
  refine (houtside other hother).congr (hrest other hother) fun leaf hleaf => ?_
  exact overlay_outside hdisjoint leaf (List.mem_flatMap.mpr ⟨other, hother, hleaf⟩)

/-- A negated alternative makes a difference where no leaf occurs twice. -/
theorem Grouped.exists_difference {clause : Clause α} (hgrouped : clause.Grouped)
    (hnodup : clause.leaves.Nodup) (h : clause.negatesAlternative = true) :
    ∃ truth, clause.selects truth ≠ clause.holds truth := by
  induction hgrouped with
  | leaf test => cases h
  | not _ ih =>
    obtain ⟨truth, htruth⟩ := ih hnodup h
    exact ⟨truth, by rw [selects, holds]; exact fun heq => htruth (Bool.not_inj heq)⟩
  | @group joint operands hlength hgrouped ih =>
    rw [leaves_group] at hnodup
    have hleaves : ∀ operand ∈ operands, operand.leaves.Nodup := (List.nodup_flatMap.mp hnodup).1
    by_cases hnegated : joint = .any ∧ ∃ operand ∈ operands, operand.isProhibited = true
    · obtain ⟨rfl, negated, hmem, hprohibited⟩ := hnegated
      obtain ⟨inside, hinside⟩ :=
        (hgrouped negated hmem).exists_settling (hleaves negated hmem) true
      obtain ⟨before, after, rfl⟩ := List.append_of_mem hmem
      obtain ⟨truth, hagrees, hothers⟩ := exists_settling_around false hgrouped hnodup inside
      refine ⟨truth, alternatives_differ ?_ hprohibited ?_ hothers⟩
      · intro hnil
        simp [List.append_eq_nil_iff.mp hnil] at hlength
      · exact hinside.congr (hgrouped negated hmem) hagrees
    · obtain ⟨operand, hmem, hoperand⟩ :=
        (negatesAlternative_group.mp h).resolve_left hnegated
      obtain ⟨inside, hinside⟩ := ih operand hmem (hleaves operand hmem) hoperand
      obtain ⟨before, after, rfl⟩ := List.append_of_mem hmem
      obtain ⟨truth, hagrees, hothers⟩ :=
        exists_settling_around (joint = .all) hgrouped hnodup inside
      refine ⟨truth, group_differs ?_ hothers ?_⟩
      · intro hany other hother
        exact Bool.eq_false_iff.mpr fun htrue => hnegated ⟨hany, other, hother, htrue⟩
      · obtain ⟨hselects, hholds⟩ := (hgrouped operand hmem).readings_congr hagrees
        rw [hselects, hholds]
        exact hinside

end Independent

end Clause

/-! ## Queries -/

/-- Whether a query selects exactly the documents on which its condition holds. -/
def Faithful (detection : Detection) (naming : Renaming) (clause : Clause Leaf)
    (condition : Condition) : Prop :=
  ∀ truth : String → Bool, (clause.map Leaf.text).selects truth =
    exprHolds naming.newName (fun leaf => truth leaf.text) detection condition.expr

/-- A query without negated alternatives is faithful; where no leaf occurs twice, no other query
is. -/
theorem faithful_queries {detection : Detection} {naming : Renaming} {conversion : Conversion}
    (hfull : detection.IsFull)
    (hparsed : ∀ condition ∈ detection.conditions, ∃ source,
      Condition.parse source = .ok condition)
    (hconversion : Conversion.ofDetection detection naming = .ok conversion) :
    List.Forall₂ (fun clause condition =>
        ((clause.map Leaf.text).negatesAlternative = false →
          Faithful detection naming clause condition) ∧
        ((clause.map Leaf.text).leaves.Nodup →
          Faithful detection naming clause condition →
            (clause.map Leaf.text).negatesAlternative = false))
      conversion.clauses detection.conditions := by
  rw [clauses_of_conversion hconversion, List.forall₂_map_left_iff, List.forall₂_same]
  intro condition hcondition
  have hgrouped := (grouped_of_conversion hfull hconversion hcondition
    (hparsed condition hcondition)).map Leaf.text
  have hholds : ∀ truth : String → Bool,
      ((exprClause naming.newName detection condition.expr).map Leaf.text).holds truth =
        exprHolds naming.newName (fun leaf => truth leaf.text) detection condition.expr := by
    intro truth
    rw [Clause.holds_map, exprClause_holds]
  refine ⟨fun hplain truth => ?_, fun hnodup hfaithful => ?_⟩
  · rw [hgrouped.selects_eq_holds hplain, hholds]
  · by_contra hnegates
    obtain ⟨truth, htruth⟩ :=
      hgrouped.exists_difference hnodup (Bool.not_eq_false _ ▸ hnegates)
    exact htruth ((hfaithful truth).trans (hholds truth).symm)

/-- A rule whose condition negates an alternative. -/
def negatedAlternativeRule : String :=
  "title: t\ndetection:\n  a:\n    x: 1\n  b:\n    y: 2\n  condition: a or not b\n"

/-- Its query is not faithful: a document with both values meets the condition and is not
selected. -/
theorem negated_alternative_unfaithful :
    ¬ ∀ (text : String) (rule : Rule) (naming : Renaming) (conversion : Conversion),
      Rule.parse text = .ok rule → rule.isValid = true → rule.detection.IsFull →
      Conversion.ofDetection rule.detection naming = .ok conversion →
      List.Forall₂ (Faithful rule.detection naming) conversion.clauses
        rule.detection.conditions := by
  intro hall
  have hrule : Rule.passes negatedAlternativeRule (fun rule =>
      rule.isValid && decide rule.detection.IsFull &&
      match Conversion.ofDetection rule.detection ⟨∅, false⟩ with
      | .ok conversion => (conversion.clauses.zip rule.detection.conditions).any fun pair =>
        (pair.1.map Leaf.text).selects (fun _ => true) !=
          exprHolds id (fun _ => true) rule.detection pair.2.expr
      | .error _ => false) = true := by
    decide +kernel
  obtain ⟨rule, hparse, hcheck⟩ := Rule.exists_of_passes hrule
  simp only [Bool.and_eq_true, decide_eq_true_eq] at hcheck
  obtain ⟨⟨hvalid, hfull⟩, hdiffers⟩ := hcheck
  split at hdiffers
  · next conversion hconversion =>
    obtain ⟨pair, hpair, hne⟩ := List.any_eq_true.mp hdiffers
    have hfaithful := (List.forall₂_zip (hall _ rule _ conversion hparse hvalid hfull hconversion)
      hpair) fun _ => true
    have hnames : Renaming.newName ⟨∅, false⟩ = id := by
      funext field
      rfl
    rw [hnames] at hfaithful
    exact absurd hfaithful (by simpa using hne)
  · cases hdiffers

theorem faithful_queries_negatedAlternativeRule : ∃ rule conversion,
    Rule.parse negatedAlternativeRule = .ok rule ∧
    Conversion.ofDetection rule.detection ⟨∅, false⟩ = .ok conversion ∧
    conversion.queries = ["(x:1 OR NOT y:2)"] ∧
    List.Forall₂ (fun clause condition =>
        ((clause.map Leaf.text).negatesAlternative = false →
          Faithful rule.detection ⟨∅, false⟩ clause condition) ∧
        ((clause.map Leaf.text).leaves.Nodup →
          Faithful rule.detection ⟨∅, false⟩ clause condition →
            (clause.map Leaf.text).negatesAlternative = false))
      conversion.clauses rule.detection.conditions := by
  have hrule : Rule.passes negatedAlternativeRule (fun rule =>
      decide rule.detection.IsFull &&
      decide ((Conversion.ofDetection rule.detection ⟨∅, false⟩).map Conversion.queries =
        .ok ["(x:1 OR NOT y:2)"])) = true := by
    decide +kernel
  obtain ⟨rule, hparse, hcheck⟩ := Rule.exists_of_passes hrule
  simp only [Bool.and_eq_true, decide_eq_true_eq] at hcheck
  obtain ⟨hfull, hqueries⟩ := hcheck
  obtain ⟨conversion, hconversion, hqueries⟩ := ok_of_map hqueries
  exact ⟨rule, conversion, hparse, hconversion, hqueries,
    faithful_queries hfull (Rule.conditions_parsed hparse) hconversion⟩

end SigmaCatalog.Query
