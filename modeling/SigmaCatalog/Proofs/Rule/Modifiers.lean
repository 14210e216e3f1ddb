import SigmaCatalog.Proofs.Rule.Retention

/-!
# Modifiers that fit one another

The checks of an item count its modifiers by class.  The classes are all modifiers but `all`, and
two modifiers of any classes never fit, so an item that passes has at most one modifier other than
`all`.  The other checks are about its values: each modifier has values of the kind it needs.
-/

namespace SigmaCatalog

/-! ## One modifier other than `all` -/

namespace Modifier

/-- Every modifier but `all` belongs to one class. -/
theorem countP_classes (modifiers : List Modifier) :
    modifiers.countP isPositional + modifiers.countP isComparison +
      modifiers.countP isExclusive = modifiers.countP (· ≠ all) := by
  induction modifiers with
  | nil => rfl
  | cons modifier modifiers ih =>
    rw [List.countP_cons, List.countP_cons, List.countP_cons, List.countP_cons, ← ih]
    cases modifier <;> simp [isPositional, isComparison, isExclusive] <;> omega

end Modifier

namespace DetectionItem

variable {item : DetectionItem} {modifier : Modifier}

/-- Modifiers fit one another exactly when at most one of them is not `all`. -/
theorem combinationFault?_eq_none_iff :
    item.combinationFault? = none ↔ item.modifiers.countP (· ≠ .all) ≤ 1 := by
  rw [← Modifier.countP_classes]
  unfold combinationFault? countOf
  generalize item.modifiers.countP Modifier.isPositional = positions
  generalize item.modifiers.countP Modifier.isComparison = comparisons
  generalize item.modifiers.countP Modifier.isExclusive = exclusive
  -- Each of the four faults needs two modifiers, and two modifiers of any classes are one of them.
  simp only [Bool.or_eq_true, Bool.and_eq_true, decide_eq_true_eq, beq_iff_eq]
  split_ifs with hpositions hcomparisons hexclusive hboth
  · exact iff_of_false (by simp) (by omega)
  · exact iff_of_false (by simp) (by omega)
  · exact iff_of_false (by simp) (by omega)
  · exact iff_of_false (by simp) (by omega)
  · exact iff_of_true rfl (by omega)

/-- Whether a modifier is the only one of an item that is not `all`. -/
def Sole (item : DetectionItem) (modifier : Modifier) : Prop :=
  item.modifiers.filter (· ≠ .all) = [modifier]

theorem sole_of_mem (hcount : item.modifiers.countP (· ≠ .all) ≤ 1)
    (hmem : modifier ∈ item.modifiers) (hall : modifier ≠ .all) : item.Sole modifier := by
  have hkept : modifier ∈ item.modifiers.filter (· ≠ .all) := by
    simp [hmem, hall]
  rw [List.countP_eq_length_filter] at hcount
  unfold Sole
  generalize item.modifiers.filter (· ≠ .all) = kept at hkept hcount
  match kept, hkept, hcount with
  | [only], hkept, _ => rw [List.mem_singleton.mp hkept]

/-- An item with a sole modifier has no other, apart from `all`. -/
theorem has_of_sole (h : item.Sole modifier) {other : Modifier} (hother : other ≠ .all) :
    item.has other = decide (other = modifier) := by
  have hmem : other ∈ item.modifiers.filter (· ≠ .all) ↔ other = modifier := by
    rw [h, List.mem_singleton]
  rw [has, Bool.eq_iff_iff, List.contains_iff_mem, decide_eq_true_eq, ← hmem]
  simp [hother]

/-! ## Values of the kind that a modifier needs -/

/-- Whether the modifiers of an item fit one another and its values. -/
structure IsFit (item : DetectionItem) : Prop where
  count : item.modifiers.countP (· ≠ .all) ≤ 1
  kinds : ∀ modifier ∈ item.modifiers, kindFault? item.values modifier = none
  blocks : .cidr ∈ item.modifiers → ∀ value ∈ item.values, blockFault? value = none

/-- An item that was read is fit. -/
theorem isFit_of_ofEntry {key : String} {value : Yaml.Value} (h : ofEntry key value = .ok item) :
    item.IsFit := by
  have hfault := (readFrom_of_ofEntry h).fit
  simp only [modifierFault?, Option.or_eq_none_iff, List.findSome?_eq_none_iff] at hfault
  obtain ⟨⟨hcombination, hkinds⟩, hblocks⟩ := hfault
  refine ⟨combinationFault?_eq_none_iff.mp hcombination, hkinds, fun hcidr => ?_⟩
  have hhas : item.has .cidr = true := List.contains_iff_mem.mpr hcidr
  rw [if_pos hhas, List.findSome?_eq_none_iff] at hblocks
  exact hblocks

theorem bool_of_exists {values : List DetectionValue} (h : kindFault? values .exists = none) :
    ∃ present, values = [.bool present] := by
  unfold kindFault? at h
  dsimp only at h
  split at h
  · exact ⟨_, rfl⟩
  · cases h

theorem exists_of_mem_forall₂ {α β : Type} {R : α → β → Prop} {xs : List α} {ys : List β} {y : β}
    (h : List.Forall₂ R xs ys) (hy : y ∈ ys) : ∃ x, R x y := by
  induction h with
  | nil => cases hy
  | cons hxy _ ih =>
    rcases List.mem_cons.mp hy with rfl | hy
    · exact ⟨_, hxy⟩
    · exact ih hy

theorem pattern_of_ofYaml? {value : Yaml.Value} {pattern : Pattern}
    (h : DetectionValue.ofYaml? value = some (.pattern pattern)) :
    ∃ written, pattern = .ofText written := by
  induction value using DetectionValue.ofYaml?.induct with
  | case1 text =>
    obtain ⟨rfl⟩ := Option.some.inj h
    exact ⟨text, rfl⟩
  | case2 n =>
    rw [DetectionValue.ofYaml?] at h
    split at h
    · cases h
    · cases h
  | case6 tag value ih =>
    rw [DetectionValue.ofYaml?] at h
    exact ih h
  | case3 | case4 | case5 | case7 | case8 => cases h

/-- A text value of an item that was read is the pattern of a text as it is written. -/
theorem exists_written {key : String} {value : Yaml.Value} (h : ofEntry key value = .ok item)
    {kept : DetectionValue} (hkept : kept ∈ item.values) (hpattern : kept.isPattern = true) :
    ∃ written, kept = .pattern (.ofText written) := by
  have hkeeps : Keeps (.string key, value) item := keeps_of_ofEntry rfl h
  obtain ⟨listed, hlisted⟩ := exists_of_mem_forall₂ hkeeps.values hkept
  cases kept with
  | pattern pattern =>
    obtain ⟨written, rfl⟩ := pattern_of_ofYaml? hlisted
    exact ⟨written, rfl⟩
  | _ => cases hpattern

end DetectionItem

end SigmaCatalog
