import Mathlib.Algebra.Group.Nat.Defs

/-!
# Numbers as texts

The text of a number is its decimal digits, after a minus sign if it is negative.
-/

namespace SigmaCatalog.Text

theorem isDigit_of_mem {n : Nat} {c : Char} (h : c ∈ Nat.toDigits 10 n) : c.isDigit :=
  Nat.isDigit_of_mem_toDigits (by decide) (by decide) h

/-- A number times a power of ten is written with as many zeros after its digits. -/
theorem toDigits_mul_pow {n : Nat} (hn : 0 < n) (zeros : Nat) :
    Nat.toDigits 10 (n * 10 ^ zeros) = Nat.toDigits 10 n ++ List.replicate zeros '0' := by
  induction zeros with
  | zero => simp
  | succ zeros ih =>
    have hpositive : 0 < n * 10 ^ zeros := Nat.mul_pos hn (Nat.pow_pos (by decide))
    have hlast := Nat.toDigits_append_toDigits (b := 10) (d := 0) (by decide) hpositive (by decide)
    have hproduct : n * 10 ^ (zeros + 1) = 10 * (n * 10 ^ zeros) + 0 := by
      rw [Nat.pow_succ, ← Nat.mul_assoc, Nat.mul_comm _ 10, Nat.add_zero]
    rw [hproduct, ← hlast, ih, List.append_assoc, List.replicate_succ']
    rfl

/-- The text of an integer is its digits, after a minus sign if it is negative. -/
theorem toList_toString (n : Int) :
    (toString n).toList =
      if 0 ≤ n then Nat.toDigits 10 n.toNat else '-' :: Nat.toDigits 10 (-n).toNat := by
  rw [Int.toString_eq_repr, Int.repr_eq_if]
  split <;> simp [Nat.repr_eq_ofList_toDigits]

theorem notMem_toString {c : Char} (hminus : c ≠ '-') (hdigit : c.isDigit = false) (n : Int) :
    c ∉ (toString n).toList := by
  have hdigits (n : Nat) : c ∉ Nat.toDigits 10 n := by
    intro hmem
    rw [isDigit_of_mem hmem] at hdigit
    cases hdigit
  rw [toList_toString]
  split
  · exact hdigits _
  · exact fun hmem => (List.mem_cons.mp hmem).elim hminus (hdigits _)

theorem toDigits_inj {n m : Nat} : Nat.toDigits 10 n = Nat.toDigits 10 m ↔ n = m := by
  refine ⟨fun h => ?_, fun h => h ▸ rfl⟩
  rw [← Nat.ofDigitChars_ten_toDigits (n := n), h, Nat.ofDigitChars_ten_toDigits]

/-- Different integers have different texts. -/
theorem toString_inj {n m : Int} : toString n = toString m ↔ n = m := by
  have hminus (digits : List Char) (k : Nat) : '-' :: digits ≠ Nat.toDigits 10 k := by
    intro h
    cases isDigit_of_mem (h ▸ List.mem_cons_self : '-' ∈ Nat.toDigits 10 k)
  refine ⟨fun h => ?_, fun h => h ▸ rfl⟩
  rw [← String.toList_inj, toList_toString, toList_toString] at h
  split at h
  · split at h
    · have hdigits := toDigits_inj.mp h
      omega
    · exact absurd h.symm (hminus _ _)
  · split at h
    · exact absurd h (hminus _ _)
    · have hdigits := toDigits_inj.mp (List.cons.inj h).2
      omega

end SigmaCatalog.Text
