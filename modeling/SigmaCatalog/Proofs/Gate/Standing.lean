import Mathlib.Data.List.Basic
import SigmaCatalog.Gate.Use

/-!
# Where a gate stands

A gate in use is unclaimed, or nobody is left to claim it, or one completion leads: the first that
has claimed it, which is under way or has ended.  The claim, the line, the progress of the leader
and what the receiver has learned are tied together in each case, and each step keeps them so.
-/

namespace SigmaCatalog.Gate

variable {α : Type}

/-! ## Handles -/

section Handles

variable {gate : Gate α} {handle other : Nat}

theorem holds_iff : gate.holds handle = true ↔ gate.handles[handle]? = some true := by
  rw [holds]
  cases gate.handles[handle]? with
  | none => simp
  | some held => simp

theorem contains_iff : gate.handles.contains true = true ↔ ∃ handle, gate.holds handle = true := by
  rw [List.contains_iff_mem, List.mem_iff_getElem?]
  exact exists_congr fun handle => holds_iff.symm

theorem holds_clone (h : gate.holds handle = true) : gate.clone.2.holds handle = true := by
  have hget := holds_iff.mp h
  have hlt := (List.getElem?_eq_some_iff.mp hget).1
  apply holds_iff.mpr
  rw [clone, List.getElem?_append_left hlt, hget]

theorem holds_drop (h : gate.holds handle = true) (hne : other ≠ handle) :
    (gate.drop other).holds handle = true := by
  apply holds_iff.mpr
  rw [drop, List.getElem?_set_ne hne]
  exact holds_iff.mp h

theorem holds_of_holds_drop (h : (gate.drop other).holds handle = true) :
    gate.holds handle = true := by
  have hget := holds_iff.mp h
  rw [drop, List.getElem?_set] at hget
  apply holds_iff.mpr
  split at hget
  · split at hget
    · cases hget
    · cases hget
  · exact hget

end Handles

/-! ## The course of a gate -/

/-- Whether a gate has come from another by steps: a claim is never taken back, and the line is
never given back. -/
structure Follows (after before : Gate α) : Prop where
  claimed : before.claimed = true → after.claimed = true
  gone : before.line ≠ .waiting → after.line ≠ .waiting

section Course

variable (gate : Gate α)

theorem Follows.refl : gate.Follows gate :=
  ⟨id, id⟩

theorem Follows.trans {first second third : Gate α} (h : third.Follows second)
    (hfirst : second.Follows first) : third.Follows first :=
  ⟨h.claimed ∘ hfirst.claimed, h.gone ∘ hfirst.gone⟩

theorem follows_takeLine : gate.takeLine.2.Follows gate := by
  rw [takeLine]
  split
  · next hline => exact ⟨id, fun hgone => absurd hline hgone⟩
  · exact .refl gate

theorem follows_send (outcome : α) : (gate.send outcome).Follows gate := by
  refine ⟨id, fun _ => ?_⟩
  rw [send]
  dsimp only
  split
  · nofun
  · nofun

theorem follows_drop (handle : Nat) : (gate.drop handle).Follows gate := by
  refine ⟨id, fun hgone => ?_⟩
  rw [drop]
  dsimp only
  split
  · next hline => exact absurd hline hgone
  · exact hgone

/-- Asking changes neither the handles nor the claim. -/
theorem follows_poll : gate.poll.2.Follows gate ∧ gate.poll.2.handles = gate.handles := by
  rw [poll]
  split
  · exact ⟨.refl gate, rfl⟩
  · split
    · exact ⟨.refl gate, rfl⟩
    · exact ⟨.refl gate, rfl⟩
    · exact ⟨⟨id, fun _ => nofun⟩, rfl⟩
    · exact ⟨⟨id, id⟩, rfl⟩

end Course

theorem Completion.answer?_eq_some_iff {completion : Completion α} {won : Bool} :
    completion.answer? = some won ↔ completion.progress = .ended ∧ completion.won = won := by
  rw [answer?, isUnderWay]
  by_cases hended : completion.progress = .ended
  · simp [hended]
  · simp [hended]

theorem isAbandoned_of_gone {gate : Gate α} (h : gate.line ≠ .waiting) :
    gate.isAbandoned = false := by
  rw [isAbandoned]
  split
  · next hline => exact absurd hline h
  · rfl

namespace Use

/-! ## Standings -/

/-- What the receiver has learned for good: outcomes, or that there will be none. -/
def resolutions (use : Use α) : List (Option α) :=
  use.news.filterMap fun
    | .outcome outcome => some (some outcome)
    | .nothing => some none
    | .pending | .gone => none

/-- Whether the first of the completions has won and all later ones have lost and ended. -/
structure LedBy (use : Use α) (first : Completion α) (rest : List (Completion α)) : Prop where
  completions : use.completions = first :: rest
  claimed : use.gate.claimed = true
  won : first.won = true
  lost : ∀ later ∈ rest, later.won = false ∧ later.progress = .ended

/-- Where a gate in use stands. -/
inductive Standing (use : Use α) : Prop
  | unclaimed (hnone : use.completions = []) (hclaimed : use.gate.claimed = false)
    (hheld : ∃ handle, use.gate.holds handle = true) (hline : use.gate.line = .waiting)
    (hlearned : use.resolutions = [])
  | deserted (hnone : use.completions = []) (hclaimed : use.gate.claimed = false)
    (hheld : ∀ handle, use.gate.holds handle = false) (hline : use.gate.line = .closed)
    (hlearned : use.resolutions = [] ∨
      use.gate.listening = false ∧ use.resolutions = [none])
  | underWay (first : Completion α) (rest : List (Completion α)) (hled : use.LedBy first rest)
    (hheld : use.gate.holds first.handle = true)
    (hprogress : first.progress = .claimed ∧ use.gate.line = .waiting ∨
      first.progress = .sending true ∧ use.gate.line = .taken)
    (hlearned : use.resolutions = [])
  | completed (first : Completion α) (rest : List (Completion α)) (hled : use.LedBy first rest)
    (hended : first.progress = .ended)
    (hlearned : use.gate.line = .delivered first.outcome ∧ use.resolutions = [] ∨
      use.gate.line = .closed ∧ use.gate.listening = false ∧
        (use.resolutions = [] ∨ use.resolutions = [some first.outcome]))

/-! ## Steps -/

section Steps

variable {use : Use α} {first : Completion α} {rest : List (Completion α)}

theorem standing_new : (new : Use α).Standing :=
  .unclaimed rfl rfl ⟨0, rfl⟩ rfl rfl

theorem LedBy.append (h : use.LedBy first rest) (handle : Nat) (outcome : α) :
    (use.claim handle outcome).LedBy first
      (rest ++ [{ handle, outcome, won := false, progress := .ended }]) := by
  constructor
  · simp [claim, Gate.claim, h.completions, h.claimed]
  · rfl
  · exact h.won
  · intro later hlater
    rcases List.mem_append.mp hlater with hearlier | hlast
    · exact h.lost later hearlier
    · obtain rfl := List.mem_singleton.mp hlast
      exact ⟨rfl, rfl⟩

theorem Standing.claim (h : use.Standing) {handle : Nat}
    (hheld : use.gate.holds handle = true) (outcome : α) :
    (use.claim handle outcome).Standing := by
  cases h with
  | unclaimed hnone hclaimed _ hline hlearned =>
    have hled : (use.claim handle outcome).LedBy
        { handle, outcome, won := true, progress := .claimed } [] := by
      constructor
      · simp [Use.claim, Gate.claim, hnone, hclaimed]
      · rfl
      · rfl
      · exact List.forall_mem_nil _
    exact .underWay _ _ hled hheld (.inl ⟨rfl, hline⟩) hlearned
  | deserted _ _ hnot =>
    rw [hnot handle] at hheld
    cases hheld
  | underWay first rest hled hfirst hprogress hlearned =>
    exact .underWay first _ (hled.append handle outcome) hfirst hprogress hlearned
  | completed first rest hled hended hlearned =>
    exact .completed first _ (hled.append handle outcome) hended hlearned

/-- A completion that has ended takes no further step. -/
theorem proceed_of_ended {number : Nat} {completion : Completion α}
    (hget : use.completions[number]? = some completion) (hended : completion.progress = .ended) :
    use.proceed number = use := by
  rw [proceed, hget]
  simp only [hended]

theorem proceed_of_none {number : Nat} (hget : use.completions[number]? = none) :
    use.proceed number = use := by
  rw [proceed, hget]

/-- Only the winner can be under way. -/
theorem LedBy.proceed_later (h : use.LedBy first rest) (number : Nat) :
    use.proceed (number + 1) = use := by
  have hget : use.completions[number + 1]? = rest[number]? := by
    rw [h.completions, List.getElem?_cons_succ]
  cases hrest : rest[number]? with
  | none => exact proceed_of_none (hget.trans hrest)
  | some later =>
    exact proceed_of_ended (hget.trans hrest) (h.lost later (List.mem_of_getElem? hrest)).2

theorem LedBy.getElem?_zero (h : use.LedBy first rest) : use.completions[0]? = some first := by
  rw [h.completions, List.getElem?_cons_zero]

/-- The winner leads on whatever else becomes of the gate. -/
theorem LedBy.withGate (h : use.LedBy first rest) (gate : Gate α) (hclaimed : gate.claimed = true) :
    LedBy { use with gate } first rest :=
  ⟨h.completions, hclaimed, h.won, h.lost⟩

theorem LedBy.moved (h : use.LedBy first rest) (gate : Gate α) (hclaimed : gate.claimed = true)
    (progress : Progress) :
    LedBy { use with gate, completions := use.completions.set 0 { first with progress } }
      { first with progress } rest where
  completions := by rw [h.completions, List.set_cons_zero]
  claimed := hclaimed
  won := h.won
  lost := h.lost

/-- A winner that has claimed the gate takes the line. -/
theorem LedBy.proceed_claimed (h : use.LedBy first rest) (hprogress : first.progress = .claimed)
    (hline : use.gate.line = .waiting) :
    use.proceed 0 = { use with
      gate := { use.gate with line := .taken }
      completions := use.completions.set 0 { first with progress := .sending true } } := by
  rw [proceed, h.getElem?_zero]
  simp only [hprogress, takeLine, hline]

/-- A winner that has the line sends its outcome. -/
theorem LedBy.proceed_sending (h : use.LedBy first rest)
    (hprogress : first.progress = .sending true) :
    use.proceed 0 = { use with
      gate := use.gate.send first.outcome
      completions := use.completions.set 0 { first with progress := .ended } } := by
  rw [proceed, h.getElem?_zero]
  simp only [hprogress, if_true]

theorem Standing.proceed (h : use.Standing) (number : Nat) : (use.proceed number).Standing := by
  cases h with
  | unclaimed hnone hclaimed hheld hline hlearned =>
    rw [proceed_of_none (by rw [hnone, List.getElem?_nil])]
    exact .unclaimed hnone hclaimed hheld hline hlearned
  | deserted hnone hclaimed hheld hline hlearned =>
    rw [proceed_of_none (by rw [hnone, List.getElem?_nil])]
    exact .deserted hnone hclaimed hheld hline hlearned
  | completed first rest hled hended hlearned =>
    have hsame : use.proceed number = use := by
      cases number with
      | zero => exact proceed_of_ended hled.getElem?_zero hended
      | succ number => exact hled.proceed_later number
    rw [hsame]
    exact .completed first rest hled hended hlearned
  | underWay first rest hled hheld hprogress hlearned =>
    cases number with
    | succ number =>
      rw [hled.proceed_later]
      exact .underWay first rest hled hheld hprogress hlearned
    | zero =>
      rcases hprogress with ⟨hprogress, hline⟩ | ⟨hprogress, hline⟩
      · have hmoved :=
          hled.moved { use.gate with line := .taken } hled.claimed (.sending true)
        rw [hled.proceed_claimed hprogress hline]
        exact .underWay _ rest hmoved hheld (.inr ⟨rfl, rfl⟩) hlearned
      · have hmoved := hled.moved (use.gate.send first.outcome) hled.claimed .ended
        rw [hled.proceed_sending hprogress]
        refine .completed _ rest hmoved rfl ?_
        by_cases hlistening : use.gate.listening = true
        · exact .inl ⟨if_pos hlistening, hlearned⟩
        · exact .inr ⟨if_neg hlistening, eq_false_of_ne_true hlistening, .inl hlearned⟩

theorem Standing.clone (h : use.Standing) {handle : Nat}
    (hheld : use.gate.holds handle = true) :
    Standing { use with gate := use.gate.clone.2 } := by
  cases h with
  | unclaimed hnone hclaimed _ hline hlearned =>
    exact .unclaimed hnone hclaimed ⟨handle, holds_clone hheld⟩ hline hlearned
  | deserted _ _ hnot =>
    rw [hnot handle] at hheld
    cases hheld
  | underWay first rest hled hfirst hprogress hlearned =>
    exact .underWay first rest (hled.withGate _ hled.claimed)
      (holds_clone hfirst) hprogress hlearned
  | completed first rest hled hended hlearned =>
    exact .completed first rest (hled.withGate _ hled.claimed) hended
      hlearned

theorem Standing.drop (h : use.Standing) {handle : Nat} (hidle : use.isBusy handle = false) :
    Standing { use with gate := use.gate.drop handle } := by
  cases h with
  | unclaimed hnone hclaimed _ hline hlearned =>
    by_cases hcontains : (use.gate.handles.set handle false).contains true = true
    · have hheld : ∃ other, (use.gate.drop handle).holds other = true := contains_iff.mp hcontains
      refine .unclaimed hnone hclaimed hheld ?_ hlearned
      simp only [Gate.drop, hline, if_pos hcontains]
    · refine .deserted hnone hclaimed ?_ ?_ (.inl hlearned)
      · intro other
        by_contra hholds
        exact hcontains (contains_iff.mpr ⟨other, Bool.of_not_eq_false hholds⟩)
      · simp only [Gate.drop, hline, if_neg hcontains]
  | deserted hnone hclaimed hheld hline hlearned =>
    refine .deserted hnone hclaimed ?_ ?_ hlearned
    · intro other
      by_contra hholds
      have hother := holds_of_holds_drop (Bool.of_not_eq_false hholds)
      rw [hheld other] at hother
      cases hother
    · simp only [Gate.drop, hline]
  | underWay first rest hled hheld hprogress hlearned =>
    -- The handle of the winner is busy, so it is another one that is dropped.
    have hne : handle ≠ first.handle := by
      rintro rfl
      have hnot : first.progress ≠ .ended := by
        rcases hprogress with ⟨hprogress, -⟩ | ⟨hprogress, -⟩
        · simp [hprogress]
        · simp [hprogress]
      have hbusy : use.isBusy first.handle = true := by
        simp [isBusy, hled.completions, Completion.isUnderWay, hnot]
      rw [hidle] at hbusy
      cases hbusy
    have hfirst := holds_drop hheld hne
    refine .underWay first rest (hled.withGate _ hled.claimed) hfirst ?_
      hlearned
    rcases hprogress with ⟨hprogress, hline⟩ | ⟨hprogress, hline⟩
    · refine .inl ⟨hprogress, ?_⟩
      have hcontains : (use.gate.handles.set handle false).contains true = true :=
        contains_iff.mpr ⟨first.handle, hfirst⟩
      simp only [Gate.drop, hline, if_pos hcontains]
    · refine .inr ⟨hprogress, ?_⟩
      simp only [Gate.drop, hline]
  | completed first rest hled hended hlearned =>
    refine .completed first rest (hled.withGate _ hled.claimed) hended ?_
    rcases hlearned with ⟨hline, hlearned⟩ | ⟨hline, hlearned⟩
    · refine .inl ⟨?_, hlearned⟩
      simp only [Gate.drop, hline]
    · refine .inr ⟨?_, hlearned⟩
      simp only [Gate.drop, hline]

/-- A receiver that is gone or has to wait learns nothing. -/
theorem poll_unresolved (h : use.gate.listening = false ∨ use.gate.line = .waiting ∨
    use.gate.line = .taken) :
    use.poll.gate = use.gate ∧ use.poll.resolutions = use.resolutions := by
  cases hlistening : use.gate.listening with
  | false => simp [poll, Gate.poll, resolutions, hlistening]
  | true =>
    rcases h with habsurd | hline | hline
    · rw [hlistening] at habsurd
      cases habsurd
    · simp [poll, Gate.poll, resolutions, hlistening, hline]
    · simp [poll, Gate.poll, resolutions, hlistening, hline]

theorem poll_delivered {outcome : α} (hlistening : use.gate.listening = true)
    (hline : use.gate.line = .delivered outcome) :
    use.poll.gate = { use.gate with line := .closed, listening := false } ∧
      use.poll.resolutions = use.resolutions ++ [some outcome] := by
  simp [poll, Gate.poll, resolutions, hlistening, hline]

theorem poll_closed (hlistening : use.gate.listening = true) (hline : use.gate.line = .closed) :
    use.poll.gate = { use.gate with listening := false } ∧
      use.poll.resolutions = use.resolutions ++ [none] := by
  simp [poll, Gate.poll, resolutions, hlistening, hline]

theorem LedBy.poll (h : use.LedBy first rest) : use.poll.LedBy first rest :=
  ⟨h.completions, (follows_poll use.gate).1.claimed h.claimed, h.won, h.lost⟩

theorem Standing.poll (h : use.Standing) : use.poll.Standing := by
  cases h with
  | unclaimed hnone hclaimed hheld hline hlearned =>
    obtain ⟨hgate, hsame⟩ := poll_unresolved (.inr (.inl hline))
    exact .unclaimed hnone (hgate ▸ hclaimed) (hgate ▸ hheld) (hgate ▸ hline)
      (hsame.trans hlearned)
  | deserted hnone hclaimed hheld hline hlearned =>
    by_cases hlistening : use.gate.listening = true
    · obtain ⟨hgate, hnew⟩ := poll_closed hlistening hline
      have hnothing : use.resolutions = [] := by
        rcases hlearned with hnothing | ⟨hgone, -⟩
        · exact hnothing
        · rw [hlistening] at hgone
          cases hgone
      have hlast : use.poll.resolutions = [none] := by
        rw [hnew, hnothing, List.nil_append]
      have hheld' : ∀ handle, use.poll.gate.holds handle = false := by
        rw [hgate]
        exact hheld
      exact .deserted hnone (hgate ▸ hclaimed) hheld' (hgate ▸ hline)
        (.inr ⟨by rw [hgate], hlast⟩)
    · obtain ⟨hgate, hsame⟩ := poll_unresolved (.inl (eq_false_of_ne_true hlistening))
      refine .deserted hnone (hgate ▸ hclaimed) (hgate ▸ hheld) (hgate ▸ hline) ?_
      rw [hgate, hsame]
      exact hlearned
  | underWay first rest hled hheld hprogress hlearned =>
    have hwaits : use.gate.line = .waiting ∨ use.gate.line = .taken :=
      hprogress.imp And.right And.right
    obtain ⟨hgate, hsame⟩ := poll_unresolved (.inr hwaits)
    refine .underWay first rest hled.poll (hgate ▸ hheld) ?_ (hsame.trans hlearned)
    rw [hgate]
    exact hprogress
  | completed first rest hled hended hlearned =>
    refine .completed first rest hled.poll hended ?_
    by_cases hlistening : use.gate.listening = true
    · rcases hlearned with ⟨hline, hlearned⟩ | ⟨-, hgone, -⟩
      · obtain ⟨hgate, hnew⟩ := poll_delivered hlistening hline
        rw [hgate, hnew, hlearned]
        exact .inr ⟨rfl, rfl, .inr rfl⟩
      · rw [hlistening] at hgone
        cases hgone
    · obtain ⟨hgate, hsame⟩ := poll_unresolved (.inl (eq_false_of_ne_true hlistening))
      rw [hgate, hsame]
      exact hlearned

theorem Standing.dropReceiver (h : use.Standing) :
    Standing { use with gate := use.gate.dropReceiver.2 } := by
  cases h with
  | unclaimed hnone hclaimed hheld hline hlearned =>
    exact .unclaimed hnone hclaimed hheld hline hlearned
  | deserted hnone hclaimed hheld hline hlearned =>
    exact .deserted hnone hclaimed hheld hline
      (hlearned.imp_right fun hlearned => ⟨rfl, hlearned.2⟩)
  | underWay first rest hled hheld hprogress hlearned =>
    exact .underWay first rest (hled.withGate _ hled.claimed) hheld hprogress
      hlearned
  | completed first rest hled hended hlearned =>
    refine .completed first rest (hled.withGate _ hled.claimed) hended ?_
    exact hlearned.imp_right fun ⟨hline, _, hlearned⟩ => ⟨hline, rfl, hlearned⟩

/-- Whatever step comes next, the gate in use stands in one of these ways. -/
theorem Standing.take (h : use.Standing) (act : Act α) : (use.take act).Standing := by
  cases act with
  | claim handle outcome =>
    rw [Use.take]
    split
    · next hheld => exact h.claim hheld outcome
    · exact h
  | proceed number => exact h.proceed number
  | clone handle =>
    rw [Use.take]
    split
    · next hheld => exact h.clone hheld
    · exact h
  | drop handle =>
    rw [Use.take]
    split
    · exact h
    · next hidle => exact h.drop (eq_false_of_ne_true hidle)
  | poll => exact h.poll
  | dropReceiver => exact h.dropReceiver

theorem Standing.takeAll (h : use.Standing) (acts : List (Act α)) :
    (use.takeAll acts).Standing := by
  induction acts generalizing use with
  | nil => exact h
  | cons act acts ih => exact ih (h.take act)

end Steps

end Use

end SigmaCatalog.Gate
