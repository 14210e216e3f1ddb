import SigmaCatalog.Proofs.Store.Reaching

/-!
# Schedules

The programs of a fleet take turns, each at its time of day.  A schedule goes on for ever.  A
program that has a turn again and again comes to its end, since every turn takes it from a tree to a
smaller one, and a finite number of programs have all ended from some turn on.
-/

namespace SigmaCatalog

/-- Whether a program is about to break down. -/
def Program.IsBroken {α : Type} : Program α → Prop
  | .act .breakDown _ => True
  | _ => False

namespace Fleet

variable {α : Type}

/-- The fleet after some turns: the time of each, and the number of the program that goes on. -/
def takeEach (fleet : Fleet α) (turns : List (String × Nat)) : Fleet α :=
  turns.foldl (fun fleet turn => fleet.take turn.1 (.advance turn.2)) fleet

/-- The fleet after the first turns of a schedule. -/
def after (fleet : Fleet α) (schedule : Nat → String × Nat) (count : Nat) : Fleet α :=
  fleet.takeEach ((List.range count).map schedule)

/-- Whether a program has a turn again and again. -/
def Recurs (schedule : Nat → String × Nat) (number : Nat) : Prop :=
  ∀ count, ∃ later, count ≤ later ∧ (schedule later).2 = number

theorem takeEach_append (fleet : Fleet α) (earlier later : List (String × Nat)) :
    fleet.takeEach (earlier ++ later) = (fleet.takeEach earlier).takeEach later :=
  List.foldl_append

theorem after_succ (fleet : Fleet α) (schedule : Nat → String × Nat) (count : Nat) :
    fleet.after schedule (count + 1) =
      (fleet.after schedule count).take (schedule count).1 (.advance (schedule count).2) := by
  rw [after, List.range_succ, List.map_append, takeEach_append]
  rfl

section Turns

variable {fleet : Fleet α} {number : Nat} {program : Program α}

/-- The turn of one program leaves what is left of the others as it is. -/
theorem take_other {other : Nat} (hne : other ≠ number) (time : String) :
    (fleet.take time (.advance other)).programs[number]? = fleet.programs[number]? := by
  cases hother : fleet.programs[other]? with
  | none => rw [take_none hother]
  | some program =>
    cases program with
    | done value => rw [take_done hother]
    | act action next =>
      by_cases hbreak : action = .breakDown
      · subst hbreak
        rw [take, hother]
        rfl
      · obtain ⟨answer, hprograms⟩ := take_act hother hbreak time
        rw [hprograms, List.getElem?_set_ne hne]

/-- A program that has ended stays as it is. -/
theorem ended_stays {value : α} (h : fleet.programs[number]? = some (.done value)) (time : String)
    (other : Nat) : (fleet.take time (.advance other)).programs[number]? = some (.done value) := by
  by_cases hother : other = number
  · subst hother
    rw [take_done h, h]
  · rw [take_other hother, h]

variable {schedule : Nat → String × Nat}

theorem ended_later {count : Nat} {value : α}
    (h : (fleet.after schedule count).programs[number]? = some (.done value)) (more : Nat) :
    (fleet.after schedule (count + more)).programs[number]? = some (.done value) := by
  induction more with
  | zero => exact h
  | succ more ih =>
    rw [← Nat.add_assoc, after_succ]
    exact ended_stays ih _ _

/-- A program waits unchanged for its next turn. -/
theorem exists_turn {count gap : Nat}
    (h : (fleet.after schedule count).programs[number]? = some program)
    (hturn : (schedule (count + gap)).2 = number) :
    ∃ later, (fleet.after schedule later).programs[number]? = some program ∧
      (schedule later).2 = number := by
  induction gap generalizing count with
  | zero => exact ⟨count, h, hturn⟩
  | succ gap ih =>
    by_cases hnow : (schedule count).2 = number
    · exact ⟨count, h, hnow⟩
    · have hnext : (fleet.after schedule (count + 1)).programs[number]? = some program := by
        rw [after_succ, take_other hnow, h]
      have hgap : count + 1 + gap = count + (gap + 1) := by omega
      exact ih hnext (hgap ▸ hturn)

/-- A program that has a turn again and again and never breaks down comes to its end.  The induction
is on what is left of the program. -/
theorem ends_of_recurs (hrecurs : Recurs schedule number)
    (hunbroken : ∀ count left,
      (fleet.after schedule count).programs[number]? = some left → ¬left.IsBroken)
    {count : Nat} (h : (fleet.after schedule count).programs[number]? = some program) :
    ∃ later value, (fleet.after schedule later).programs[number]? = some (.done value) := by
  induction program generalizing count with
  | done value => exact ⟨count, value, h⟩
  | act action next ih =>
    obtain ⟨later, hle, hturn⟩ := hrecurs count
    obtain ⟨gap, rfl⟩ := Nat.exists_eq_add_of_le hle
    obtain ⟨turn, hwaiting, hmine⟩ := exists_turn h hturn
    have hbreak : action ≠ .breakDown := by
      rintro rfl
      exact hunbroken turn _ hwaiting trivial
    obtain ⟨answer, hprograms⟩ := take_act hwaiting hbreak (schedule turn).1
    have hlt : number < (fleet.after schedule turn).programs.length :=
      (List.getElem?_eq_some_iff.mp hwaiting).1
    have hnext : (fleet.after schedule (turn + 1)).programs[number]? = some (next answer) := by
      rw [after_succ, hmine, hprograms, List.getElem?_set_self hlt]
    exact ih answer hnext

/-- What comes about for each of a finite number of programs and then stays comes about for all of
them. -/
theorem exists_for_all {happened : Nat → Nat → Prop}
    (hstays : ∀ number count more, happened number count → happened number (count + more))
    (size : Nat) (heach : ∀ number < size, ∃ count, happened number count) :
    ∃ count, ∀ number < size, happened number count := by
  induction size with
  | zero =>
    refine ⟨0, fun number hlt => ?_⟩
    omega
  | succ size ih =>
    obtain ⟨count, hall⟩ := ih fun number hlt => heach number (by omega)
    obtain ⟨last, hlast⟩ := heach size (by omega)
    refine ⟨count + last, fun number hlt => ?_⟩
    by_cases heq : number = size
    · subst heq
      rw [Nat.add_comm]
      exact hstays number last count hlast
    · exact hstays number count last (hall number (by omega))

/-- If every program has a turn again and again and none breaks down, all of them have ended from
some turn on. -/
theorem all_end {size : Nat} (hsize : ∀ count, (fleet.after schedule count).programs.length = size)
    (hrecurs : ∀ number < size, Recurs schedule number)
    (hunbroken : ∀ count (number : Nat) left,
      (fleet.after schedule count).programs[number]? = some left → ¬left.IsBroken) :
    ∃ count, ∀ number < size, ((fleet.after schedule count).result? number).isSome = true := by
  apply exists_for_all
  · intro number count more hsome
    obtain ⟨value, hvalue⟩ := Option.isSome_iff_exists.mp hsome
    have hended := ended_later (result?_eq_some_iff.mp hvalue) more
    rw [result?_eq_some_iff.mpr hended]
    rfl
  · intro number hlt
    have hstart : ∃ program, (fleet.after schedule 0).programs[number]? = some program :=
      ⟨_, List.getElem?_eq_getElem (by rw [hsize]; exact hlt)⟩
    obtain ⟨program, hprogram⟩ := hstart
    obtain ⟨later, value, hvalue⟩ := ends_of_recurs (hrecurs number hlt)
      (fun count left => hunbroken count number left) hprogram
    exact ⟨later, by rw [result?_eq_some_iff.mpr hvalue]; rfl⟩

end Turns

end Fleet

end SigmaCatalog
