import Mathlib.Tactic.Ring
import SigmaCatalog.Decimal.Notation
import SigmaCatalog.Proofs.Text.Numeral

/-!
# Whole numbers as floating point numbers

A whole number from `2 ^ 54` up is rounded to the nearest floating point number, and the interval
around that one holds exactly the whole numbers that are rounded to it.  Its plain text is a whole
number of the interval: the one that ends in the most zeros, and the nearest of those.  Grids are
tried from the coarsest on; in an interval that is narrower than `10 ^ 4` a coarser grid has one
number at most, and between `2 ^ 63` and `2 ^ 64` the grid of `10 ^ 3` always has one.
-/

namespace SigmaCatalog

namespace Binary64

variable {n half significand : Nat}

/-- The quotient by an even number is rounded to the multiple within half the divisor. -/
theorem divToEven_eq_iff (hhalf : 0 < half) :
    divToEven n (2 * half) = significand ↔
      if significand % 2 = 0 then
        2 * half * significand ≤ n + half ∧ n ≤ 2 * half * significand + half
      else 2 * half * significand < n + half ∧ n < 2 * half * significand + half := by
  have hdivision := Nat.div_add_mod n (2 * half)
  have hrest := Nat.mod_lt n (Nat.mul_pos (by decide : 0 < 2) hhalf)
  have hpair : significand < n / (2 * half) ∨ significand = n / (2 * half) ∨
      significand = n / (2 * half) + 1 ∨ n / (2 * half) + 2 ≤ significand := by
    omega
  simp only [divToEven, Bool.or_eq_true, decide_eq_true_eq, Bool.and_eq_true, beq_iff_eq]
  generalize n / (2 * half) = quotient at *
  generalize n % (2 * half) = rest at *
  -- The product with the significand is compared with the product with the quotient.
  obtain hless | rfl | rfl | hmore := hpair
  · have hproduct := Nat.mul_le_mul_left (2 * half) hless
    rw [Nat.mul_succ] at hproduct
    generalize 2 * half * significand = product at *
    split <;> split <;> omega
  · generalize 2 * half * significand = product at *
    split <;> split <;> omega
  · rw [Nat.mul_succ]
    generalize 2 * half * quotient = product at *
    split <;> split <;> omega
  · have hproduct := Nat.mul_le_mul_left (2 * half) hmore
    rw [Nat.mul_add] at hproduct
    generalize 2 * half * significand = product at *
    split <;> split <;> omega

theorem exponentOf_nat (hn : n ≠ 0) : exponentOf n 1 = (n.log2 : Int) - 52 := by
  have hlow := Nat.log2_self_le hn
  have hone : Nat.log2 1 = 0 := by decide
  have hquotient : 0x20000000000000 ≤
      (scaled n 1 ((n.log2 : Int) - 53)).1 / (scaled n 1 ((n.log2 : Int) - 53)).2 := by
    rw [scaled]
    split
    · next hexponent =>
      have hpower : 0 < 2 ^ ((n.log2 : Int) - 53).toNat := Nat.pow_pos (by decide)
      rw [Nat.one_mul]
      refine (Nat.le_div_iff_mul_le hpower).mpr ?_
      have hsum : 53 + ((n.log2 : Int) - 53).toNat = n.log2 := by omega
      calc 0x20000000000000 * 2 ^ ((n.log2 : Int) - 53).toNat
          = 2 ^ (53 + ((n.log2 : Int) - 53).toNat) := by rw [Nat.pow_add]
        _ = 2 ^ n.log2 := by rw [hsum]
        _ ≤ n := hlow
    · next hexponent =>
      have hsum : n.log2 + (-((n.log2 : Int) - 53)).toNat = 53 := by omega
      rw [Nat.div_one]
      calc 0x20000000000000 = 2 ^ (n.log2 + (-((n.log2 : Int) - 53)).toNat) := by rw [hsum]
        _ = 2 ^ n.log2 * 2 ^ (-((n.log2 : Int) - 53)).toNat := Nat.pow_add ..
        _ ≤ n * 2 ^ (-((n.log2 : Int) - 53)).toNat := Nat.mul_le_mul_right _ hlow
  have hexponent : (n.log2 : Int) - (Nat.log2 1 : Int) - 53 = (n.log2 : Int) - 53 := by
    rw [hone]
    omega
  simp only [exponentOf, hexponent, if_pos hquotient, minExponent]
  omega

/-- The nearest number with the exponent of its first binary digit, or the next power of two. -/
theorem ofNat_eq {exponent : Nat} (hlog : n.log2 = exponent + 52) :
    ofNat n =
      if divToEven n (2 ^ exponent) = 0x20000000000000 then
        if 970 < exponent then infinite false else finite false 0x10000000000000 (exponent + 1)
      else if 971 < exponent then infinite false
      else finite false (divToEven n (2 ^ exponent)) exponent := by
  have hn : n ≠ 0 := by
    rintro rfl
    simp at hlog
  have hexponent : exponentOf n 1 = exponent := by
    rw [exponentOf_nat hn, hlog]
    push_cast
    omega
  have hscaled : scaled n 1 exponent = (n, 2 ^ exponent) := by
    rw [scaled, if_pos (Int.natCast_nonneg exponent), Int.toNat_natCast, Nat.one_mul]
    rfl
  simp only [ofNat, ofRatio, if_neg hn, hexponent, hscaled, maxExponent]
  by_cases hfull : divToEven n (2 ^ exponent) = 0x20000000000000
  · simp only [if_pos hfull]
    split <;> split <;> first | rfl | omega
  · simp only [if_neg hfull]
    split <;> split <;> first | rfl | omega

theorem exponent_of_ofNat {negative : Bool} {exponent : Int} (hn : n ≠ 0)
    (h : ofNat n = finite negative significand exponent) :
    exponent = (n.log2 : Int) - 52 ∨ exponent = (n.log2 : Int) - 51 := by
  simp only [ofNat, ofRatio, if_neg hn, exponentOf_nat hn] at h
  split at h
  · split at h
    · cases h
    · obtain ⟨-, -, hexponent⟩ := finite.inj h
      omega
  · split at h
    · cases h
    · obtain ⟨-, -, hexponent⟩ := finite.inj h
      omega

end Binary64

namespace Decimal.Interval

open Binary64

/-- Whether an interval over the denominator 1 holds a whole number. -/
def Has (interval : Interval) (n : Nat) : Prop :=
  if interval.closed then interval.low ≤ n ∧ n ≤ interval.high
  else interval.low < n ∧ n < interval.high

/-- The distance from a number to the lower end of its interval, in quarters of its unit. -/
def quartersBelow (significand : Nat) : Nat :=
  if significand = 0x10000000000000 then 1 else 2

variable {significand quarter n : Nat}

theorem around_eq (significand quarter : Nat) :
    around significand (quarter + 2 : Nat) = {
      low := (4 * significand - quartersBelow significand) * 2 ^ quarter
      value := 4 * significand * 2 ^ quarter
      high := (4 * significand + 2) * 2 ^ quarter
      den := 1
      closed := significand % 2 == 0 } := by
  have hexponent : minExponent < ((quarter + 2 : Nat) : Int) := by
    rw [minExponent]
    omega
  have hquarter : ((quarter + 2 : Nat) : Int) - 2 = quarter := by
    push_cast
    omega
  simp only [around, hexponent, and_true, hquarter, Int.natCast_nonneg, if_true, Int.toNat_natCast]
  rfl

theorem has_around_iff (hlow : 0x10000000000000 ≤ significand) :
    (around significand (quarter + 2 : Nat)).Has n ↔
      if significand % 2 = 0 then
        4 * (significand * 2 ^ quarter) ≤ n + quartersBelow significand * 2 ^ quarter ∧
          n ≤ 4 * (significand * 2 ^ quarter) + 2 * 2 ^ quarter
      else 4 * (significand * 2 ^ quarter) < n + quartersBelow significand * 2 ^ quarter ∧
        n < 4 * (significand * 2 ^ quarter) + 2 * 2 ^ quarter := by
  have hbelow : quartersBelow significand ≤ 4 * significand := by
    unfold quartersBelow
    split <;> omega
  have hends : (4 * significand - quartersBelow significand) * 2 ^ quarter +
      quartersBelow significand * 2 ^ quarter = 4 * (significand * 2 ^ quarter) := by
    rw [← Nat.add_mul, Nat.sub_add_cancel hbelow, Nat.mul_assoc]
  rw [around_eq, Has]
  simp only [beq_iff_eq, Nat.add_mul, Nat.mul_assoc]
  split <;> omega

/-- Numbers of the same binary place are rounded to multiples of the unit. -/
theorem ofNat_eq_finite_iff_of_log2 (hhigh : significand < 0x20000000000000)
    (hquarter : quarter ≤ 969) (hlog : n.log2 = quarter + 2 + 52) :
    ofNat n = finite false significand (quarter + 2 : Nat) ↔
      divToEven n (2 * (2 * 2 ^ quarter)) = significand := by
  have hunit : 2 ^ (quarter + 2) = 2 * (2 * 2 ^ quarter) := by
    rw [Nat.pow_add]
    omega
  rw [ofNat_eq hlog, hunit]
  split
  · next hfull =>
    constructor
    · intro h
      split at h
      · cases h
      · have hexponent := (finite.inj h).2.2
        omega
    · omega
  · rw [if_neg (by omega)]
    constructor
    · intro h
      exact (finite.inj h).2.1
    · intro h
      rw [h]

/-- Numbers of the binary place below are rounded up to a power of two. -/
theorem ofNat_eq_finite_iff_of_log2_below (hlow : 0x10000000000000 ≤ significand)
    (hquarter : quarter ≤ 969) (hlog : n.log2 = quarter + 1 + 52) :
    ofNat n = finite false significand (quarter + 2 : Nat) ↔
      significand = 0x10000000000000 ∧ divToEven n (2 * 2 ^ quarter) = 0x20000000000000 := by
  have hunit : 2 ^ (quarter + 1) = 2 * 2 ^ quarter := by
    rw [Nat.pow_succ]
    omega
  rw [ofNat_eq hlog, hunit]
  split
  · next hfull =>
    rw [if_neg (by omega)]
    constructor
    · intro h
      exact ⟨(finite.inj h).2.1.symm, hfull⟩
    · rintro ⟨rfl, -⟩
      push_cast
      rfl
  · next hfull =>
    rw [if_neg (by omega)]
    constructor
    · intro h
      have hexponent := (finite.inj h).2.2
      omega
    · rintro ⟨-, habsurd⟩
      exact absurd habsurd hfull

/-- A number is a power of two, whose interval is smaller below, or it lies above it. -/
theorem quartersBelow_cases (hlow : 0x10000000000000 ≤ significand) (unit : Nat) :
    significand = 0x10000000000000 ∧ quartersBelow significand = 1 ∨
      0x10000000000001 * unit ≤ significand * unit ∧ quartersBelow significand = 2 := by
  by_cases hpower : significand = 0x10000000000000
  · exact .inl ⟨hpower, if_pos hpower⟩
  · exact .inr ⟨Nat.mul_le_mul_right unit (by omega), if_neg hpower⟩

theorem bounds_of_has (hlow : 0x10000000000000 ≤ significand)
    (hhigh : significand < 0x20000000000000)
    (h : (around significand (quarter + 2 : Nat)).Has n) :
    2 ^ (quarter + 53) ≤ n ∧ n < 2 ^ (quarter + 55) := by
  have hunit : 0 < 2 ^ quarter := Nat.pow_pos (by decide)
  have hproduct := Nat.mul_le_mul_right (2 ^ quarter) (Nat.succ_le_of_lt hhigh)
  rw [Nat.succ_mul] at hproduct
  rw [has_around_iff hlow] at h
  rw [Nat.add_comm quarter, Nat.add_comm quarter, Nat.pow_add, Nat.pow_add]
  obtain ⟨rfl, hquarters⟩ | ⟨hmore, hquarters⟩ := quartersBelow_cases hlow (2 ^ quarter)
  · rw [hquarters] at h
    simp only [Nat.reduceMod, if_true] at h
    omega
  · rw [hquarters] at h
    split at h <;> omega

theorem pow_add_right (quarter more : Nat) : 2 ^ (quarter + more) = 2 ^ more * 2 ^ quarter := by
  rw [Nat.add_comm, Nat.pow_add]

/-- From the binary place on, an interval holds what is rounded to the multiple of the unit. -/
theorem divToEven_eq_iff_has (hlow : 0x10000000000000 ≤ significand)
    (hplace : 2 ^ (quarter + 54) ≤ n) :
    divToEven n (2 * (2 * 2 ^ quarter)) = significand ↔
      (around significand (quarter + 2 : Nat)).Has n := by
  have hunit : 0 < 2 ^ quarter := Nat.pow_pos (by decide)
  have hform (factor : Nat) : factor * 2 ^ quarter * significand =
      factor * (significand * 2 ^ quarter) := by
    rw [Nat.mul_assoc, Nat.mul_comm (2 ^ quarter)]
  rw [pow_add_right] at hplace
  rw [has_around_iff hlow, divToEven_eq_iff (by omega), ← Nat.mul_assoc, hform]
  obtain ⟨rfl, hquarters⟩ | ⟨-, hquarters⟩ := quartersBelow_cases hlow (2 ^ quarter)
  · rw [hquarters]
    simp only [Nat.reduceMod, if_true]
    omega
  · rw [hquarters]

/-- Below the binary place, only the interval of a power of two holds anything. -/
theorem divToEven_eq_iff_has_below (hlow : 0x10000000000000 ≤ significand)
    (habove : n < 2 ^ (quarter + 54)) :
    significand = 0x10000000000000 ∧ divToEven n (2 * 2 ^ quarter) = 0x20000000000000 ↔
      (around significand (quarter + 2 : Nat)).Has n := by
  have hunit : 0 < 2 ^ quarter := Nat.pow_pos (by decide)
  rw [pow_add_right] at habove
  rw [has_around_iff hlow, divToEven_eq_iff hunit]
  obtain ⟨rfl, hquarters⟩ | ⟨hmore, hquarters⟩ := quartersBelow_cases hlow (2 ^ quarter)
  · rw [hquarters]
    simp only [Nat.reduceMod, if_true, true_and]
    omega
  · have hne : significand ≠ 0x10000000000000 := by
      rintro rfl
      omega
    rw [hquarters]
    simp only [hne, false_and, false_iff]
    split <;> omega

/-- The interval of a number holds the whole numbers that are rounded to it. -/
theorem ofNat_eq_finite_iff (hlow : 0x10000000000000 ≤ significand)
    (hhigh : significand < 0x20000000000000) (hquarter : quarter ≤ 969) :
    ofNat n = finite false significand (quarter + 2 : Nat) ↔
      (around significand (quarter + 2 : Nat)).Has n := by
  by_cases hn : n = 0
  · subst hn
    refine iff_of_false (fun h => ?_) fun h => ?_
    · obtain ⟨-, hzero, -⟩ := finite.inj (h.symm : _ = zero false)
      omega
    · have hbounds := (bounds_of_has hlow hhigh h).1
      have hunit : 0 < 2 ^ (quarter + 53) := Nat.pow_pos (by decide)
      omega
  by_cases hlog : n.log2 = quarter + 54
  · rw [ofNat_eq_finite_iff_of_log2 hhigh hquarter hlog]
    exact divToEven_eq_iff_has hlow ((Nat.log2_eq_iff hn).mp hlog).1
  by_cases hbelow : n.log2 = quarter + 53
  · rw [ofNat_eq_finite_iff_of_log2_below hlow hquarter hbelow]
    exact divToEven_eq_iff_has_below hlow ((Nat.log2_eq_iff hn).mp hbelow).2
  · refine iff_of_false (fun h => ?_) fun h => ?_
    · obtain hexponent | hexponent := exponent_of_ofNat hn h
      · omega
      · omega
    · obtain ⟨hleast, hmost⟩ := bounds_of_has hlow hhigh h
      rw [← Nat.le_log2 hn] at hleast
      rw [← Nat.log2_lt hn] at hmost
      omega

end Decimal.Interval

/-! ## The shortest whole number -/

namespace Decimal

/-- Whether one whole number is nearer to a value than another, or as near and not below it. -/
def IsNearer (value n m : Nat) : Prop :=
  (n - value) + (value - n) < (m - value) + (value - m) ∨
    (n - value) + (value - n) = (m - value) + (value - m) ∧ m ≤ n

/-- Whether a whole number is the shortest of some numbers around a value: it ends in the most
zeros, and of those that end in as many it is the nearest. -/
structure IsShortest (reads : Nat → Prop) (value n : Nat) : Prop where
  member : reads n
  coarsest : ∀ m zeros, reads m → 10 ^ zeros ∣ m → 10 ^ zeros ∣ n
  nearest : ∀ m, reads m → (∀ zeros, 10 ^ zeros ∣ n → 10 ^ zeros ∣ m) → IsNearer value n m

theorem IsShortest.unique {reads : Nat → Prop} {value n m : Nat} (h : IsShortest reads value n)
    (hother : IsShortest reads value m) : n = m := by
  have hnearer := h.nearest m hother.member fun zeros => hother.coarsest n zeros h.member
  have hnearer' := hother.nearest n h.member fun zeros => h.coarsest m zeros hother.member
  unfold IsNearer at hnearer hnearer'
  omega

theorem IsShortest.congr {reads other : Nat → Prop} {value n : Nat}
    (h : IsShortest reads value n) (hsame : ∀ m, reads m ↔ other m) : IsShortest other value n where
  member := (hsame n).mp h.member
  coarsest m zeros hm := h.coarsest m zeros ((hsame m).mpr hm)
  nearest m hm := h.nearest m ((hsame m).mpr hm)

/-! ## Grids -/

/-- What is asked of an interval around a whole number from `10 ^ 18` up, so that some number in it
ends in three zeros and one at most in four. -/
structure Interval.IsNarrow (interval : Interval) : Prop where
  den : interval.den = 1
  positive : 0 < interval.low
  below : interval.low < interval.value
  above : interval.value + 1000 < interval.high
  narrow : interval.high < interval.low + 10000
  least : 10 ^ 18 ≤ interval.value
  most : interval.value < 10 ^ 20

namespace Interval

variable {interval : Interval} {n m : Nat}

theorem has_of_le_value (h : interval.IsNarrow) (hm : interval.Has m) (hle : m ≤ n)
    (hvalue : n ≤ interval.value) : interval.Has n := by
  have hhigh := h.above
  unfold Has at hm ⊢
  split at hm
  · rw [if_pos (by assumption)]
    omega
  · rw [if_neg (by assumption)]
    omega

theorem has_of_value_le (h : interval.IsNarrow) (hm : interval.Has m) (hle : n ≤ m)
    (hvalue : interval.value ≤ n) : interval.Has n := by
  have hlow := h.below
  unfold Has at hm ⊢
  split at hm
  · rw [if_pos (by assumption)]
    omega
  · rw [if_neg (by assumption)]
    omega

/-- An interval that is narrow holds one multiple of `10 ^ 4` at most. -/
theorem eq_of_has (h : interval.IsNarrow) (hn : interval.Has n) (hm : interval.Has m)
    (hcoarse : 10 ^ 4 ∣ n) (hcoarse' : 10 ^ 4 ∣ m) : n = m := by
  have hnarrow := h.narrow
  unfold Has at hn hm
  split at hn <;> split at hm <;> omega

theorem holds_iff (hden : interval.den = 1) (digits unit : Nat) :
    interval.holds { digits, exponent := unit } = true ↔ interval.Has (digits * 10 ^ unit) := by
  unfold holds Has
  rw [if_pos (Int.natCast_nonneg unit), Int.toNat_natCast, hden]
  simp only [Nat.mul_one]
  split <;> simp

/-- The multiple below the value, or the one above it, is nearer than every other multiple that the
interval holds. -/
theorem isNearer_of_choice (h : interval.IsNarrow) {unit digits : Nat} (hunit : 0 < unit)
    (hchoice : digits = interval.value / unit ∧ (2 * (interval.value % unit) < unit ∨
        ¬interval.Has ((interval.value / unit + 1) * unit)) ∨
      digits = interval.value / unit + 1 ∧ (unit ≤ 2 * (interval.value % unit) ∨
        ¬interval.Has (interval.value / unit * unit)))
    (other : Nat) (hother : interval.Has (other * unit)) :
    IsNearer interval.value (digits * unit) (other * unit) := by
  have hdivision := Nat.div_add_mod' interval.value unit
  have hrest := Nat.mod_lt interval.value hunit
  generalize interval.value % unit = rest at *
  generalize interval.value / unit = quotient at *
  unfold IsNearer
  obtain hle | hlt := Nat.lt_or_ge quotient other
  · have hproduct := Nat.mul_le_mul_right unit (Nat.succ_le_of_lt hle)
    have hhas := has_of_value_le h hother hproduct (by rw [Nat.succ_mul]; omega)
    obtain ⟨rfl, hnear | hmissed⟩ | ⟨rfl, hnear⟩ := hchoice
    · rw [Nat.succ_mul] at hproduct
      omega
    · exact absurd hhas hmissed
    · rw [Nat.succ_mul] at hproduct ⊢
      omega
  · have hproduct := Nat.mul_le_mul_right unit hlt
    have hhas := has_of_le_value h hother hproduct (by omega)
    obtain ⟨rfl, hnear⟩ | ⟨rfl, hnear | hmissed⟩ := hchoice
    · omega
    · rw [Nat.succ_mul]
      omega
    · exact absurd hhas hmissed

/-- On a grid the nearest multiple is taken, if the interval holds one at all. -/
theorem nearestOn_cases (h : interval.IsNarrow) (unit : Nat) :
    (nearestOn .up interval unit = none ∧ ∀ digits, ¬interval.Has (digits * 10 ^ unit)) ∨
    ∃ digits, nearestOn .up interval unit = some { digits, exponent := unit } ∧ digits ≠ 0 ∧
      interval.Has (digits * 10 ^ unit) ∧ ∀ other, interval.Has (other * 10 ^ unit) →
        IsNearer interval.value (digits * 10 ^ unit) (other * 10 ^ unit) := by
  have hpower : 0 < 10 ^ unit := Nat.pow_pos (by decide)
  have hpositive (digits : Nat) (hhas : interval.Has (digits * 10 ^ unit)) : digits ≠ 0 := by
    rintro rfl
    have hlow := h.positive
    unfold Has at hhas
    split at hhas <;> omega
  have hbelow : (interval.holds { digits := interval.value / 10 ^ unit, exponent := unit } &&
      interval.value / 10 ^ unit != 0) = true ↔
      interval.Has (interval.value / 10 ^ unit * 10 ^ unit) := by
    rw [Bool.and_eq_true, holds_iff h.den, bne_iff_ne]
    exact and_iff_left_of_imp (hpositive _)
  have habove : interval.holds { digits := interval.value / 10 ^ unit + 1, exponent := unit } =
      true ↔ interval.Has ((interval.value / 10 ^ unit + 1) * 10 ^ unit) := holds_iff h.den _ _
  simp only [nearestOn, if_pos (Int.natCast_nonneg unit), Int.toNat_natCast, h.den, Nat.one_mul,
    Nat.pow_eq]
  split
  · next hheld hheld' =>
    have hhas := hbelow.mp hheld
    have hhas' := habove.mp hheld'
    split
    · next hnear =>
      exact .inr ⟨_, rfl, hpositive _ hhas, hhas,
        isNearer_of_choice h hpower (.inl ⟨rfl, .inl hnear⟩)⟩
    · next hfar =>
      have hnearer := isNearer_of_choice h hpower (.inr ⟨rfl, .inl (Nat.le_of_not_lt hfar)⟩)
      rw [ite_self]
      exact .inr ⟨_, rfl, Nat.succ_ne_zero _, hhas', hnearer⟩
  · next hheld hmissed =>
    have hhas := hbelow.mp hheld
    have hmissed' := fun hhas' => Bool.false_ne_true (hmissed.symm.trans (habove.mpr hhas'))
    exact .inr ⟨_, rfl, hpositive _ hhas, hhas,
      isNearer_of_choice h hpower (.inl ⟨rfl, .inr hmissed'⟩)⟩
  · next hmissed hheld' =>
    have hhas' := habove.mp hheld'
    have hmissed' := fun hhas => Bool.false_ne_true (hmissed.symm.trans (hbelow.mpr hhas))
    exact .inr ⟨_, rfl, Nat.succ_ne_zero _, hhas',
      isNearer_of_choice h hpower (.inr ⟨rfl, .inr hmissed'⟩)⟩
  · next hmissed hmissed' =>
    refine .inl ⟨rfl, fun digits hhas => ?_⟩
    -- A multiple that the interval holds lies beyond one of the two beside the value.
    obtain hlt | hle := Nat.lt_or_ge (interval.value / 10 ^ unit) digits
    · have hproduct := Nat.mul_le_mul_right (10 ^ unit) (Nat.succ_le_of_lt hlt)
      have hvalue := Nat.lt_div_mul_add (a := interval.value) hpower
      rw [← Nat.succ_mul] at hvalue
      have hhas' := has_of_value_le h hhas hproduct (Nat.le_of_lt hvalue)
      exact Bool.false_ne_true (hmissed'.symm.trans (habove.mpr hhas'))
    · have hproduct := Nat.mul_le_mul_right (10 ^ unit) hle
      have hhas' := has_of_le_value h hhas hproduct (Nat.div_mul_le_self _ _)
      exact Bool.false_ne_true (hmissed.symm.trans (hbelow.mpr hhas'))

/-- On the grid of `10 ^ 3` there is always a multiple. -/
theorem isSome_nearestOn (h : interval.IsNarrow) :
    (nearestOn .up interval (3 : Nat)).isSome = true := by
  obtain ⟨-, hmissed⟩ | ⟨digits, hfound, -⟩ := nearestOn_cases h 3
  · have hlow := h.below
    have hhigh := h.above
    refine absurd ?_ (hmissed (interval.value / 10 ^ 3 + 1))
    unfold Has
    split <;> omega
  · rw [hfound, Option.isSome_some]

/-- Where the grid of `10 ^ 4` has no multiple, nothing in the interval is a multiple of more. -/
theorem not_dvd_of_nearestOn (h : interval.IsNarrow)
    (hnone : nearestOn .up interval (4 : Nat) = none) (hn : interval.Has n) : ¬10 ^ 4 ∣ n := by
  rintro ⟨other, rfl⟩
  obtain ⟨-, habsent⟩ | ⟨_, habsurd, -⟩ := nearestOn_cases h 4
  · rw [Nat.mul_comm] at hn
    exact habsent other hn
  · rw [habsurd] at hnone
    cases hnone

end Interval

/-! ## The search -/

theorem search_cases {tie : Tie} {interval : Interval} {grids : Nat} {unit target : Int}
    (hle : target ≤ unit) (hgrids : unit - target < grids)
    (hhit : (nearestOn tie interval target).isSome = true) :
    ∃ found decimal, target ≤ found ∧ nearestOn tie interval found = some decimal ∧
      (∀ between, found < between → between ≤ unit → nearestOn tie interval between = none) ∧
      shortest.search tie interval grids unit = decimal.trimZeros 20 := by
  induction grids generalizing unit with
  | zero => omega
  | succ grids ih =>
    rw [shortest.search]
    cases hnearest : nearestOn tie interval unit with
    | some decimal =>
      refine ⟨unit, decimal, hle, hnearest, fun between hless hmost => ?_, rfl⟩
      omega
    | none =>
      have hne : target ≠ unit := by
        rintro rfl
        rw [hnearest] at hhit
        cases hhit
      obtain ⟨found, decimal, hfound, hdecimal, hmissed, hsearch⟩ :=
        ih (by omega : target ≤ unit - 1) (by omega)
      refine ⟨found, decimal, hfound, hdecimal, fun between hless hmost => ?_, hsearch⟩
      by_cases heq : between = unit
      · exact heq ▸ hnearest
      · exact hmissed between hless (by omega)

theorem climb_cases (atLeast : Int → Bool) (steps : Nat) (place : Int) :
    place ≤ leadingPlace.climb atLeast steps place ∧
      (leadingPlace.climb atLeast steps place = place ∨
        atLeast (leadingPlace.climb atLeast steps place) = true) := by
  induction steps generalizing place with
  | zero => exact ⟨Int.le_refl place, .inl rfl⟩
  | succ steps ih =>
    rw [leadingPlace.climb]
    split
    · next hnext =>
      obtain ⟨hle, hlast⟩ := ih (place + 1)
      refine ⟨by omega, .inr ?_⟩
      obtain heq | hlast := hlast
      · rw [heq]
        exact hnext
      · exact hlast
    · exact ⟨Int.le_refl place, .inl rfl⟩

/-! ## Texts -/

/-- The whole number that a decimal without a fraction is. -/
def Digits.whole (decimal : Digits) : Nat :=
  decimal.digits * 10 ^ decimal.exponent.toNat

theorem Digits.plain_eq {decimal : Digits} (hexponent : 0 ≤ decimal.exponent)
    (hdigits : decimal.digits ≠ 0) : decimal.plain = toString decimal.whole := by
  rw [plain, if_pos hexponent, whole, Nat.toString_eq_ofList_toDigits,
    Text.toDigits_mul_pow (Nat.pos_of_ne_zero hdigits), String.ofList_append]
  rfl

/-- Removing zeros at the end changes the way a number is written only. -/
theorem Digits.plain_trimZeros (steps : Nat) {decimal : Digits} (hexponent : 0 ≤ decimal.exponent)
    (hdigits : decimal.digits ≠ 0) :
    (decimal.trimZeros steps).plain = toString decimal.whole := by
  induction steps generalizing decimal with
  | zero => exact plain_eq hexponent hdigits
  | succ steps ih =>
    rw [trimZeros]
    split
    · next hzero =>
      simp only [Bool.and_eq_true, decide_eq_true_eq] at hzero
      have hwhole : whole { digits := decimal.digits / 10, exponent := decimal.exponent + 1 } =
          decimal.whole := by
        have hexponent' : (decimal.exponent + 1).toNat = decimal.exponent.toNat + 1 := by omega
        have htens : decimal.digits = decimal.digits / 10 * 10 := by omega
        rw [whole, whole, hexponent', Nat.pow_succ]
        conv => rhs; rw [htens]
        ring
      rw [ih (by dsimp only; omega) (by dsimp only; omega), hwhole]
    · exact plain_eq hexponent hdigits

/-! ## Plain texts -/

theorem leadingPlace_bounds {n : Nat} (hleast : 10 ^ 18 ≤ n) (hmost : n < 10 ^ 20) :
    4 ≤ leadingPlace n 1 ∧ leadingPlace n 1 < 20 := by
  have hn : n ≠ 0 := by omega
  have hlow : 59 ≤ n.log2 := (Nat.le_log2 hn).mpr (by omega)
  have hhigh : n.log2 < 67 := (Nat.log2_lt hn).mpr (by omega)
  have hone : Nat.log2 1 = 0 := by decide
  rw [leadingPlace, hone]
  obtain ⟨hle, hlast⟩ := climb_cases
    (fun k : Int => if 0 ≤ k then decide (1 * Nat.pow 10 k.toNat ≤ n)
      else decide (1 ≤ n * Nat.pow 10 (-k).toNat)) 8
    (((n.log2 : Int) - (0 : Nat) - 1) * 30103 / 100000 - 1)
  refine ⟨by omega, ?_⟩
  obtain heq | hlast := hlast
  · omega
  · generalize leadingPlace.climb _ 8 _ = place at *
    rw [if_pos (by omega), decide_eq_true_iff, Nat.one_mul] at hlast
    have hpower : 10 ^ place.toNat < 10 ^ 20 := Nat.lt_of_le_of_lt hlast hmost
    have hplace := (Nat.pow_lt_pow_iff_right (by decide)).mp hpower
    omega

/-- The decimal that is found is the shortest number of the interval. -/
theorem exists_shortest {significand : Nat} {exponent : Int}
    (h : (Interval.around significand exponent).IsNarrow) :
    ∃ n, (shortest .up significand exponent).plain = toString n ∧
      IsShortest (Interval.around significand exponent).Has
        (Interval.around significand exponent).value n := by
  rw [shortest, h.den]
  generalize Interval.around significand exponent = interval at *
  obtain ⟨hplace, hplace'⟩ := leadingPlace_bounds h.least h.most
  have hgrids : leadingPlace interval.value 1 - (3 : Nat) < (18 : Nat) := by omega
  obtain ⟨found, decimal, hfound, hnearest, hmissed, hsearch⟩ :=
    search_cases (by omega) hgrids (Interval.isSome_nearestOn h)
  obtain ⟨unit, rfl⟩ := Int.eq_ofNat_of_zero_le (by omega : 0 ≤ found)
  obtain ⟨hnone, -⟩ | ⟨digits, hsome, hdigits, hhas, hnearer⟩ := Interval.nearestOn_cases h unit
  · rw [hnone] at hnearest
    cases hnearest
  obtain rfl := Option.some.inj (hsome.symm.trans hnearest)
  refine ⟨digits * 10 ^ unit, ?_, hhas, fun m zeros hm hzeros => ?_, fun m hm hzeros => ?_⟩
  · rw [hsearch, Digits.plain_trimZeros 20 (Int.natCast_nonneg unit) hdigits]
    rfl
  · obtain hlt | hle := Nat.lt_or_ge unit zeros
    · have hcoarse : 10 ^ 4 ∣ m := (Nat.pow_dvd_pow 10 (by omega)).trans hzeros
      obtain heq | hmore : unit = 3 ∨ 4 ≤ unit := by omega
      · have hnone := hmissed (4 : Nat) (by omega) (by omega)
        exact absurd hcoarse (Interval.not_dvd_of_nearestOn h hnone hm)
      · have hcoarse' : 10 ^ 4 ∣ digits * 10 ^ unit :=
          (Nat.pow_dvd_pow 10 hmore).trans (Nat.dvd_mul_left _ _)
        rwa [Interval.eq_of_has h hhas hm hcoarse' hcoarse]
    · exact (Nat.pow_dvd_pow 10 hle).trans (Nat.dvd_mul_left _ _)
  · obtain ⟨other, rfl⟩ := hzeros unit (Nat.dvd_mul_left _ _)
    rw [Nat.mul_comm (10 ^ unit)] at hm ⊢
    exact hnearer other hm

end Decimal

/-! ## Numbers from `2 ^ 63` to `2 ^ 64` -/

namespace Binary64

open Decimal Interval

/-- Whether a whole number is the shortest of all that are rounded to the same floating point
number. -/
def IsShortestWhole (n : Nat) : Prop :=
  ∃ significand exponent : Nat,
    IsShortest (fun m => ofNat m = finite false significand exponent)
      (significand * 2 ^ exponent) n

variable {n significand quarter : Nat}

theorem exists_finite (hlow : 0x8000000000000000 ≤ n) (hhigh : n < 0x10000000000000000) :
    ∃ significand quarter, 0x10000000000000 ≤ significand ∧ significand < 0x20000000000000 ∧
      (quarter = 9 ∨ quarter = 10) ∧
      ofNat n = finite false significand (quarter + 2 : Nat) := by
  have hlog : n.log2 = 11 + 52 := (Nat.log2_eq_iff (by omega)).mpr ⟨hlow, hhigh⟩
  have hrounded := (divToEven_eq_iff (n := n) (by decide : 0 < 1024)).mp rfl
  have hunit : 2 ^ 11 = 2 * 1024 := by decide
  rw [ofNat_eq hlog, hunit, if_neg (by omega : ¬970 < 11), if_neg (by omega : ¬971 < 11)]
  generalize divToEven n (2 * 1024) = rounded at *
  by_cases hfull : rounded = 0x20000000000000
  · exact ⟨0x10000000000000, 10, by decide, by decide, .inr rfl, if_pos hfull⟩
  · refine ⟨rounded, 9, ?_, ?_, .inl rfl, if_neg hfull⟩
    · split at hrounded <;> omega
    · split at hrounded <;> omega

theorem isNarrow_around (hlow : 0x10000000000000 ≤ significand)
    (hhigh : significand < 0x20000000000000) (hquarter : quarter = 9 ∨ quarter = 10) :
    (around significand (quarter + 2 : Nat)).IsNarrow := by
  have hbelow : quartersBelow significand = 1 ∨ quartersBelow significand = 2 := by
    unfold quartersBelow
    split <;> simp
  rw [around_eq]
  obtain rfl | rfl := hquarter
  · constructor <;> dsimp only <;> omega
  · constructor <;> dsimp only <;> omega

/-- The shortest number of the interval around `2 ^ 63` lies above it, and so do the others. -/
theorem le_of_isShortest {value shown : Nat} (hleast : 0x10000000000000 ≤ significand)
    (hquarter : quarter = 9 ∨ quarter = 10)
    (h : IsShortest (around significand (quarter + 2 : Nat)).Has value shown) :
    0x8000000000000000 ≤ shown := by
  have hmember := (has_around_iff hleast).mp h.member
  obtain rfl | rfl := hquarter
  · obtain ⟨rfl, hquarters⟩ | ⟨hmore, hquarters⟩ := quartersBelow_cases hleast (2 ^ 9)
    · have hthousand : 10 ^ 3 ∣ shown := by
        refine h.coarsest 9223372036854776000 3 ?_ (by decide)
        rw [has_around_iff hleast]
        decide
      rw [hquarters] at hmember
      simp only [Nat.reduceMod, if_true] at hmember
      omega
    · rw [hquarters] at hmember
      split at hmember <;> omega
  · obtain ⟨rfl, hquarters⟩ | ⟨hmore, hquarters⟩ := quartersBelow_cases hleast (2 ^ 10)
    · rw [hquarters] at hmember
      simp only [Nat.reduceMod, if_true] at hmember
      omega
    · rw [hquarters] at hmember
      split at hmember <;> omega

/-- The plain text of the number nearest to a whole number is the shortest whole number that is
rounded to it. -/
theorem plainText_ofNat (hlow : 0x8000000000000000 ≤ n) (hhigh : n < 0x10000000000000000) :
    ∃ shown : Nat, (ofNat n).plainText = toString shown ∧ ofNat shown = ofNat n ∧
      0x8000000000000000 ≤ shown ∧ (shown = n ↔ IsShortestWhole n) := by
  obtain ⟨significand, quarter, hleast, hmost, hquarter, hfinite⟩ := exists_finite hlow hhigh
  have hreads (m : Nat) := ofNat_eq_finite_iff (n := m) hleast hmost
    (by omega : quarter ≤ 969)
  obtain ⟨shown, htext, hshortest⟩ := exists_shortest (isNarrow_around hleast hmost hquarter)
  have hvalue : (around significand (quarter + 2 : Nat)).value =
      significand * 2 ^ (quarter + 2) := by
    rw [around_eq, Nat.pow_add]
    ring
  rw [hvalue] at hshortest
  have hshown := hshortest.congr fun m => (hreads m).symm
  refine ⟨shown, ?_, hshown.member.trans hfinite.symm, le_of_isShortest hleast hquarter hshortest,
    ?_, ?_⟩
  · rw [hfinite, plainText, if_neg (by omega), htext]
    rfl
  · rintro rfl
    exact ⟨significand, quarter + 2, hshown⟩
  · rintro ⟨significand', exponent, hother⟩
    obtain ⟨-, rfl, hexponent⟩ := finite.inj (hfinite.symm.trans hother.member)
    obtain rfl := Int.ofNat.inj hexponent
    exact hshown.unique hother

end Binary64

end SigmaCatalog
