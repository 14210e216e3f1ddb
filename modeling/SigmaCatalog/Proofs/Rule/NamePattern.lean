import Mathlib.Data.List.Infix
import SigmaCatalog.Rule.NamePattern

/-!
# What a match of a glob decides

A match of a glob goes back to its last star only.  Nothing is lost by that: between two stars of
the glob there are characters that stand for themselves, and if the part after the later star fits
at all, it fits with the first place at which these characters were found, since from there the most
of the name is left.  So a match answers whether the name fits the glob, and it does so in a number
of turns that is bounded by the lengths of both.
-/

namespace SigmaCatalog

namespace Glob

/-! ## What fits a glob -/

section Fits

variable {glob name passed : List Char}

theorem fits_nil_iff : Fits [] name ↔ name = [] := by
  constructor
  · rintro ⟨⟩
    rfl
  · rintro rfl
    exact .nil

theorem fits_star_iff : Fits ('*' :: glob) name ↔ ∃ rest, rest <:+ name ∧ Fits glob rest := by
  constructor
  · intro h
    cases h with
    | star part h => exact ⟨_, List.suffix_append part _, h⟩
    | char hchar => exact absurd rfl hchar
  · rintro ⟨rest, ⟨part, rfl⟩, h⟩
    exact .star part h

theorem fits_char_iff {c : Char} (hc : c ≠ '*') :
    Fits (c :: glob) name ↔ ∃ rest, name = c :: rest ∧ Fits glob rest := by
  constructor
  · intro h
    cases h with
    | star => exact absurd rfl hc
    | char _ h => exact ⟨_, rfl, h⟩
  · rintro ⟨rest, rfl, h⟩
    exact .char hc h

/-- Only stars fit the empty name. -/
theorem fits_empty_iff : Fits glob [] ↔ glob.all (· == '*') = true := by
  induction glob with
  | nil => simp [fits_nil_iff]
  | cons c glob ih =>
    by_cases hc : c = '*'
    · subst hc
      simp [fits_star_iff, ih]
    · simp [fits_char_iff hc, hc]

/-- A star takes nothing, or the next character and then whatever it takes of the rest. -/
theorem fits_star_tail_iff :
    Fits ('*' :: glob) name ↔ Fits glob name ∨ Fits ('*' :: glob) name.tail := by
  cases name with
  | nil => simp [fits_star_iff]
  | cons c name => simp [fits_star_iff, List.suffix_cons_iff, or_and_right, exists_or]

/-- A star that is followed by less of the name can take more instead. -/
theorem Fits.star_of_suffix {rest : List Char} (h : Fits ('*' :: glob) rest)
    (hsuffix : rest <:+ name) : Fits ('*' :: glob) name := by
  obtain ⟨last, hlast, hfits⟩ := fits_star_iff.mp h
  exact fits_star_iff.mpr ⟨last, hlast.trans hsuffix, hfits⟩

/-- Characters that are no stars stand for themselves. -/
theorem fits_passed_iff (hpassed : '*' ∉ passed) :
    Fits (passed ++ glob) name ↔ ∃ rest, name = passed ++ rest ∧ Fits glob rest := by
  induction passed generalizing name with
  | nil => simp
  | cons c passed ih =>
    rw [List.mem_cons, not_or] at hpassed
    rw [List.cons_append, fits_char_iff (Ne.symm hpassed.1)]
    constructor
    · rintro ⟨later, rfl, h⟩
      obtain ⟨rest, rfl, hrest⟩ := (ih hpassed.2).mp h
      exact ⟨rest, rfl, hrest⟩
    · rintro ⟨rest, rfl, h⟩
      exact ⟨passed ++ rest, rfl, (ih hpassed.2).mpr ⟨rest, rfl, h⟩⟩

/-- When an earlier star takes more, what is passed after it is passed later in the name. -/
theorem exists_rest_of_passed (hpassed : '*' ∉ passed)
    (h : Fits ('*' :: (passed ++ glob)) (passed ++ name).tail) :
    ∃ rest, rest <:+ name ∧ passed.length + rest.length ≤ (passed ++ name).length - 1 ∧
      Fits glob rest := by
  obtain ⟨later, hlater, hfits⟩ := fits_star_iff.mp h
  obtain ⟨rest, rfl, hrest⟩ := (fits_passed_iff hpassed).mp hfits
  have hlength : passed.length + rest.length ≤ (passed ++ name).length - 1 := by
    simpa using hlater.length_le
  have hwhole : rest <:+ passed ++ name :=
    (List.suffix_append passed rest).trans (hlater.trans (List.tail_suffix _))
  refine ⟨rest, ?_, hlength, hrest⟩
  apply List.suffix_of_suffix_length_le hwhole (List.suffix_append passed name)
  rw [List.length_append] at hlength
  omega

/-- An earlier star need not be tried again once a later one has been reached. -/
theorem fits_of_earlier_star (hpassed : '*' ∉ passed)
    (h : Fits ('*' :: (passed ++ '*' :: glob)) (passed ++ name).tail) :
    Fits ('*' :: glob) name := by
  obtain ⟨rest, hrest, -, hfits⟩ := exists_rest_of_passed hpassed h
  exact hfits.star_of_suffix hrest

/-- A star need not be tried again once the name has come to its end. -/
theorem fits_of_ended (hpassed : '*' ∉ passed)
    (h : Fits ('*' :: (passed ++ glob)) (passed ++ []).tail) : Fits glob [] := by
  obtain ⟨rest, hrest, -, hfits⟩ := exists_rest_of_passed hpassed h
  rwa [List.suffix_nil.mp hrest] at hfits

end Fits

/-! ## Attempts -/

namespace Attempt

variable {attempt next : Attempt}

/-- Whether the characters that were passed since the last star are the same in the glob and in the
name, and no stars. -/
def Aligned (attempt : Attempt) : Prop :=
  ∀ glob name, attempt.star = some (glob, name) →
    ∃ passed, '*' ∉ passed ∧ glob = passed ++ attempt.glob ∧ name = passed ++ attempt.name

/-- Whether the name fits as far as an attempt has come, or when the last star takes more. -/
def Promising (attempt : Attempt) : Prop :=
  Fits attempt.glob attempt.name ∨
    ∃ glob name, attempt.star = some (glob, name) ∧ Fits ('*' :: glob) name.tail

theorem aligned_begin (glob name : List Char) : Aligned { glob, name } := by
  intro glob name hstar
  cases hstar

theorem promising_begin_iff {glob name : List Char} :
    Promising { glob, name } ↔ Fits glob name := by
  simp [Promising]

theorem aligned_at_star (glob name : List Char) :
    Aligned { glob, name, star := some (glob, name) } := by
  intro _ _ hstar
  obtain ⟨rfl, rfl⟩ := Prod.mk.inj (Option.some.inj hstar)
  exact ⟨[], List.not_mem_nil, rfl, rfl⟩

theorem promising_at_star_iff {glob name : List Char} :
    Promising { glob, name, star := some (glob, name) } ↔ Fits ('*' :: glob) name := by
  simp [Promising, ← fits_star_tail_iff]

theorem Aligned.pass {c : Char} {glob name : List Char} {star : Option (List Char × List Char)}
    (h : Aligned { glob := c :: glob, name := c :: name, star }) (hc : c ≠ '*') :
    Aligned { glob, name, star } := by
  intro starGlob starName hstar
  obtain ⟨passed, hpassed, rfl, rfl⟩ := h _ _ hstar
  exact ⟨passed ++ [c], by simp [hpassed, Ne.symm hc], by simp, by simp⟩

/-- When the name does not fit as far as an attempt has come, trying again is all that is left. -/
theorem promising_of_retry (hfits : ¬Fits attempt.glob attempt.name)
    (h : attempt.retry = .inl next) :
    next.Aligned ∧ (attempt.Promising ↔ next.Promising) := by
  unfold retry at h
  split at h
  · cases h
  · next glob name hstar =>
    cases h
    refine ⟨aligned_at_star glob name.tail, ?_⟩
    rw [promising_at_star_iff]
    simp [Promising, hfits, hstar]

theorem not_promising_of_retry (hfits : ¬Fits attempt.glob attempt.name) {answer : Bool}
    (h : attempt.retry = .inr answer) : answer = false ∧ ¬attempt.Promising := by
  unfold retry at h
  split at h
  · next hstar =>
    cases h
    simp [Promising, hfits, hstar]
  · cases h

/-- A turn that goes on keeps what was passed aligned, and what is left promises as much. -/
theorem Aligned.turn (haligned : attempt.Aligned) (h : attempt.turn = .inl next) :
    next.Aligned ∧ (attempt.Promising ↔ next.Promising) := by
  unfold Attempt.turn at h
  split at h
  · cases h
  · next glob name star _ =>
    cases h
    refine ⟨aligned_at_star glob name, ?_⟩
    rw [promising_at_star_iff]
    constructor
    · rintro (hfits | ⟨starGlob, starName, hstar, hfits⟩)
      · exact hfits
      · obtain ⟨passed, hpassed, rfl, rfl⟩ := haligned _ _ hstar
        exact fits_of_earlier_star hpassed hfits
    · exact .inl
  · next g glob c name star hstar =>
    have hg : g ≠ '*' := fun heq => hstar heq
    split at h
    · next heq =>
      subst heq
      cases h
      refine ⟨haligned.pass hg, ?_⟩
      simp [Promising, fits_char_iff hg]
    · next hne =>
      refine promising_of_retry ?_ h
      simp [fits_char_iff hg, Ne.symm hne]
  · next hname =>
    refine promising_of_retry ?_ h
    rw [fits_nil_iff]
    exact fun hnil => hname hnil

/-- A turn that answers answers whether the attempt was promising. -/
theorem Aligned.of_answered (haligned : attempt.Aligned) {answer : Bool}
    (h : attempt.turn = .inr answer) : answer = true ↔ attempt.Promising := by
  unfold Attempt.turn at h
  split at h
  · next glob star =>
    cases h
    rw [← fits_empty_iff]
    constructor
    · exact .inl
    · rintro (hfits | ⟨starGlob, starName, hstar, hfits⟩)
      · exact hfits
      · obtain ⟨passed, hpassed, rfl, rfl⟩ := haligned _ _ hstar
        exact fits_of_ended hpassed hfits
  · cases h
  · next g glob c name star hstar =>
    have hg : g ≠ '*' := fun heq => hstar heq
    split at h
    · cases h
    · next hne =>
      have hfits : ¬Fits (g :: glob) (c :: name) := by simp [fits_char_iff hg, Ne.symm hne]
      obtain ⟨rfl, hnot⟩ := not_promising_of_retry hfits h
      simp [hnot]
  · next name star hname =>
    have hfits : ¬Fits [] name := by
      rw [fits_nil_iff]
      exact fun hnil => hname hnil
    obtain ⟨rfl, hnot⟩ := not_promising_of_retry hfits h
    simp [hnot]

/-- A match answers whether its attempt is promising. -/
theorem Aligned.answer_iff (haligned : attempt.Aligned) :
    attempt.answer = true ↔ attempt.Promising := by
  fun_induction Attempt.answer attempt with
  | case1 attempt next hturn ih =>
    obtain ⟨hnext, hpromising⟩ := haligned.turn hturn
    rw [ih hnext, hpromising]
  | case2 attempt answer hturn => exact haligned.of_answered hturn

/-! ## Turns -/

/-- What a match has come to after some turns: the attempt to go on with, or the answer. -/
def after : (turns : Nat) → Attempt → Attempt ⊕ Bool
  | 0, attempt => .inl attempt
  | turns + 1, attempt =>
    match attempt.turn with
    | .inl next => next.after turns
    | .inr answer => .inr answer

/-- A match comes to its answer in no more turns than its effort allows. -/
theorem exists_after_eq_answer (attempt : Attempt) :
    ∃ turns ≤ attempt.effort + 1, attempt.after turns = .inr attempt.answer := by
  fun_induction Attempt.answer attempt with
  | case1 attempt next hturn ih =>
    obtain ⟨turns, hle, hafter⟩ := ih
    refine ⟨turns + 1, ?_, ?_⟩
    · have hlt := effort_lt_of_turn hturn
      omega
    · rw [after, hturn]
      exact hafter
  | case2 attempt answer hturn =>
    refine ⟨1, Nat.le_add_left 1 _, ?_⟩
    rw [after, hturn]

theorem effort_begin (glob name : List Char) :
    effort { glob, name } + 1 = (name.length + 1) * (glob.length + name.length + 1) := by
  simp only [effort, nameBound, globBound, Option.elim, Nat.max_zero, Nat.succ_mul]
  omega

end Attempt

/-- A name matches a glob when it fits it. -/
theorem matchesName_iff {glob name : List Char} : matchesName glob name = true ↔ Fits glob name :=
  (Attempt.aligned_begin glob name).answer_iff.trans Attempt.promising_begin_iff

instance (glob name : List Char) : Decidable (Fits glob name) :=
  decidable_of_iff _ matchesName_iff

end Glob

namespace NamePattern

/-- The match of a glob and a name ends, after a number of turns that is bounded by their lengths,
with the answer whether the name fits the glob; and a glob selects just the declared names that fit
it, in the order of declaration. -/
theorem glob_decided (glob : String) :
    (∀ name : String, ∃ turns ≤ (name.length + 1) * (glob.length + name.length + 1),
      Glob.Attempt.after turns { glob := glob.toList, name := name.toList } =
          .inr (Glob.matchesName glob.toList name.toList) ∧
        (Glob.matchesName glob.toList name.toList = true ↔
          Glob.Fits glob.toList name.toList)) ∧
    ∀ declared : List String, (NamePattern.glob glob).expand declared =
      declared.filter fun name => Glob.Fits glob.toList name.toList := by
  constructor
  · intro name
    obtain ⟨turns, hle, hafter⟩ :=
      Glob.Attempt.exists_after_eq_answer { glob := glob.toList, name := name.toList }
    rw [Glob.Attempt.effort_begin, String.length_toList, String.length_toList] at hle
    exact ⟨turns, hle, hafter, Glob.matchesName_iff⟩
  · intro declared
    rw [expand]
    refine List.filter_congr fun name _ => ?_
    rw [Bool.eq_iff_iff, decide_eq_true_iff]
    exact Glob.matchesName_iff

/-- A later star that is tried again finds the last place; the names stay in their order. -/
example :
    (NamePattern.glob "a*b*c").expand ["abcbc", "ac", "a*bc", "abcb"] = ["abcbc", "a*bc"] := by
  decide +kernel

end NamePattern

end SigmaCatalog
