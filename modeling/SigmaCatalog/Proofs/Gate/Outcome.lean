import SigmaCatalog.Proofs.Gate.Standing

/-!
# One outcome through a gate

However the steps of its callers and of its receiver come, a gate has one winner: the completion
whose claim was the first.  What the receiver learns is the winner's outcome, or that there will be
none because every handle was dropped before anybody claimed.
-/

namespace SigmaCatalog.Gate

variable {α : Type}

/-- What a completion was called with. -/
def Completion.call (completion : Completion α) : Nat × α :=
  (completion.handle, completion.outcome)

namespace Use

theorem takeAll_append (use : Use α) (first second : List (Act α)) :
    use.takeAll (first ++ second) = (use.takeAll first).takeAll second :=
  List.foldl_append

/-! ## What callers ask for -/

/-- The completion that a step calls for: only a claim does, through a handle that is held. -/
def call? (use : Use α) : Act α → Option (Nat × α)
  | .claim handle outcome => if use.gate.holds handle then some (handle, outcome) else none
  | _ => none

def calls (use : Use α) : List (Act α) → List (Nat × α)
  | [] => []
  | act :: acts => (use.call? act).toList ++ (use.take act).calls acts

section Calls

variable {use : Use α} {handle : Nat}

/-- A completion that moves on is still the same call. -/
theorem map_call_set (number : Nat) (progress : Progress) {completion : Completion α}
    (hget : use.completions[number]? = some completion) :
    (use.completions.set number { completion with progress }).map Completion.call =
      use.completions.map Completion.call := by
  apply List.ext_getElem?
  intro other
  rw [List.getElem?_map, List.getElem?_map, List.getElem?_set]
  split
  · next hsame =>
    subst hsame
    have hlt := (List.getElem?_eq_some_iff.mp hget).1
    rw [if_pos hlt, hget]
    rfl
  · rfl

/-- What a step of a completion leaves alone. -/
structure Onward (after before : Use α) : Prop where
  handles : after.gate.handles = before.gate.handles
  listening : after.gate.listening = before.gate.listening
  news : after.news = before.news
  calls : after.completions.map Completion.call = before.completions.map Completion.call
  follows : after.gate.Follows before.gate

theorem Onward.refl (use : Use α) : use.Onward use :=
  ⟨rfl, rfl, rfl, rfl, .refl use.gate⟩

theorem onward_proceed (number : Nat) : (use.proceed number).Onward use := by
  rw [proceed]
  split
  · exact .refl use
  · next completion hget =>
    have hcalls (progress : Progress) := map_call_set number progress hget
    dsimp only
    split
    · refine ⟨?_, ?_, rfl, hcalls _, follows_takeLine use.gate⟩
      · rw [takeLine]
        split <;> rfl
      · rw [takeLine]
        split <;> rfl
    · split
      · exact ⟨rfl, rfl, rfl, hcalls _, follows_send use.gate _⟩
      · exact ⟨rfl, rfl, rfl, hcalls _, .refl use.gate⟩
    · exact .refl use

/-- A step adds the completion that it calls for, and no other. -/
theorem map_call_take (act : Act α) :
    (use.take act).completions.map Completion.call =
      use.completions.map Completion.call ++ (use.call? act).toList := by
  cases act with
  | claim handle outcome =>
    rw [take, call?]
    split
    · exact List.map_append
    · exact (List.append_nil _).symm
  | proceed number => exact (onward_proceed number).calls.trans (List.append_nil _).symm
  | clone handle =>
    rw [take]
    split
    · exact (List.append_nil _).symm
    · exact (List.append_nil _).symm
  | drop handle =>
    rw [take]
    split
    · exact (List.append_nil _).symm
    · exact (List.append_nil _).symm
  | poll => exact (List.append_nil _).symm
  | dropReceiver => exact (List.append_nil _).symm

theorem map_call_takeAll (acts : List (Act α)) :
    (use.takeAll acts).completions.map Completion.call =
      use.completions.map Completion.call ++ use.calls acts := by
  induction acts generalizing use with
  | nil => exact (List.append_nil _).symm
  | cons act acts ih =>
    calc
      ((use.take act).takeAll acts).completions.map Completion.call =
          (use.take act).completions.map Completion.call ++ (use.take act).calls acts := ih
      _ = use.completions.map Completion.call ++ use.calls (act :: acts) := by
        rw [map_call_take, List.append_assoc, calls]

/-- A handle is held until it is dropped. -/
theorem holds_take (h : use.gate.holds handle = true) {act : Act α} (hact : act ≠ .drop handle) :
    (use.take act).gate.holds handle = true := by
  cases act with
  | claim other outcome =>
    rw [take]
    split
    · exact h
    · exact h
  | proceed number =>
    rw [take, holds, (onward_proceed number).handles]
    exact h
  | clone other =>
    rw [take]
    split
    · exact holds_clone h
    · exact h
  | drop other =>
    rw [take]
    split
    · exact h
    · exact holds_drop h fun hsame => hact (hsame ▸ rfl)
  | poll =>
    change (use.gate.poll.2.handles[handle]?).getD false = true
    rw [(follows_poll use.gate).2]
    exact h
  | dropReceiver => exact h

theorem holds_takeAll (h : use.gate.holds handle = true) {acts : List (Act α)}
    (hacts : .drop handle ∉ acts) : (use.takeAll acts).gate.holds handle = true := by
  induction acts generalizing use with
  | nil => exact h
  | cons act acts ih =>
    rw [List.mem_cons, not_or] at hacts
    exact ih (holds_take h (Ne.symm hacts.1)) hacts.2

theorem holds_take_clone (h : use.gate.holds handle = true) :
    (use.take (.clone handle)).gate.holds use.gate.clone.1 = true := by
  rw [take, if_pos h]
  apply holds_iff.mpr
  exact List.getElem?_concat_length

theorem not_holds_take_drop (hidle : use.isBusy handle = false) :
    (use.take (.drop handle)).gate.holds handle = false := by
  rw [take, hidle]
  apply eq_false_of_ne_true
  intro hholds
  have hget := holds_iff.mp hholds
  rw [if_neg Bool.false_ne_true, Gate.drop, List.getElem?_set_self'] at hget
  cases hhandle : use.gate.handles[handle]? with
  | none =>
    rw [hhandle] at hget
    cases hget
  | some held =>
    rw [hhandle] at hget
    cases hget

end Calls

/-! ## What lasts -/

section Lasting

variable {use : Use α} {first : Completion α} {rest : List (Completion α)}

/-- Callers leave the receiver alone. -/
theorem receiver_take {act : Act α} (hpoll : act ≠ .poll) (hdrop : act ≠ .dropReceiver) :
    (use.take act).gate.listening = use.gate.listening ∧
      (use.take act).resolutions = use.resolutions := by
  cases act with
  | claim handle outcome =>
    rw [take]
    split
    · exact ⟨rfl, rfl⟩
    · exact ⟨rfl, rfl⟩
  | proceed number =>
    have honward := @onward_proceed _ use number
    refine ⟨honward.listening, ?_⟩
    rw [take, resolutions, honward.news, resolutions]
  | clone handle =>
    rw [take]
    split
    · exact ⟨rfl, rfl⟩
    · exact ⟨rfl, rfl⟩
  | drop handle =>
    rw [take]
    split
    · exact ⟨rfl, rfl⟩
    · exact ⟨rfl, rfl⟩
  | poll => exact absurd rfl hpoll
  | dropReceiver => exact absurd rfl hdrop

/-- What the receiver has learned stays learned. -/
theorem resolutions_prefix_take (act : Act α) : use.resolutions <+: (use.take act).resolutions := by
  by_cases hpoll : act = .poll
  · subst hpoll
    rw [take, resolutions, poll, resolutions, List.filterMap_append]
    exact List.prefix_append _ _
  · by_cases hdrop : act = .dropReceiver
    · subst hdrop
      exact List.prefix_rfl
    · exact ⟨[], (List.append_nil _).trans (receiver_take hpoll hdrop).2.symm⟩

theorem resolutions_prefix_takeAll (acts : List (Act α)) :
    use.resolutions <+: (use.takeAll acts).resolutions := by
  induction acts generalizing use with
  | nil => exact List.prefix_rfl
  | cons act acts ih => exact (resolutions_prefix_take act).trans ih

/-- Whether the receiver is held, unless it has learned something for good. -/
def Kept (use : Use α) : Prop :=
  use.resolutions = [] → use.gate.listening = true

theorem Kept.take (h : use.Kept) {act : Act α} (hact : act ≠ .dropReceiver) :
    (use.take act).Kept := by
  by_cases hpoll : act = .poll
  · subst hpoll
    intro hnothing
    have hbefore : use.resolutions = [] :=
      List.prefix_nil.mp (hnothing ▸ resolutions_prefix_take .poll)
    have hlistening := h hbefore
    change use.poll.resolutions = [] at hnothing
    change use.poll.gate.listening = true
    cases hline : use.gate.line with
    | waiting => rw [(poll_unresolved (.inr (.inl hline))).1, hlistening]
    | taken => rw [(poll_unresolved (.inr (.inr hline))).1, hlistening]
    | delivered outcome =>
      rw [(poll_delivered hlistening hline).2] at hnothing
      simp at hnothing
    | closed =>
      rw [(poll_closed hlistening hline).2] at hnothing
      simp at hnothing
  · obtain ⟨hlistening, hsame⟩ := @receiver_take _ use _ hpoll hact
    rw [Kept, hlistening, hsame]
    exact h

theorem Kept.takeAll (h : use.Kept) {acts : List (Act α)} (hacts : .dropReceiver ∉ acts) :
    (use.takeAll acts).Kept := by
  induction acts generalizing use with
  | nil => exact h
  | cons act acts ih =>
    rw [List.mem_cons, not_or] at hacts
    exact ih (h.take (Ne.symm hacts.1)) hacts.2

theorem kept_takeAll_new {acts : List (Act α)} (hacts : .dropReceiver ∉ acts) :
    ((new : Use α).takeAll acts).Kept :=
  Kept.takeAll (fun _ => rfl) hacts

/-- A winner that has ended stays what it is. -/
theorem LedBy.take (h : use.LedBy first rest) (hended : first.progress = .ended) (act : Act α) :
    ∃ rest, (use.take act).LedBy first rest := by
  cases act with
  | claim handle outcome =>
    rw [Use.take]
    split
    · exact ⟨_, h.append handle outcome⟩
    · exact ⟨rest, h⟩
  | proceed number =>
    have hsame : use.proceed number = use := by
      cases number with
      | zero => exact proceed_of_ended h.getElem?_zero hended
      | succ number => exact h.proceed_later number
    rw [Use.take, hsame]
    exact ⟨rest, h⟩
  | clone handle =>
    rw [Use.take]
    split
    · exact ⟨rest, h.withGate _ h.claimed⟩
    · exact ⟨rest, h⟩
  | drop handle =>
    rw [Use.take]
    split
    · exact ⟨rest, h⟩
    · exact ⟨rest, h.withGate _ h.claimed⟩
  | poll => exact ⟨rest, h.poll⟩
  | dropReceiver => exact ⟨rest, h.withGate _ h.claimed⟩

theorem LedBy.takeAll (h : use.LedBy first rest) (hended : first.progress = .ended)
    (acts : List (Act α)) :
    ∃ rest, (use.takeAll acts).LedBy first rest := by
  induction acts generalizing use rest with
  | nil => exact ⟨rest, h⟩
  | cons act acts ih =>
    obtain ⟨later, hlater⟩ := h.take hended act
    exact ih hlater

/-- Whether every handle was dropped without a completion. -/
structure Deserted (use : Use α) : Prop where
  untouched : use.completions = []
  dropped : ∀ handle, use.gate.holds handle = false

theorem Deserted.take (h : use.Deserted) (act : Act α) : (use.take act).Deserted := by
  cases act with
  | claim handle outcome =>
    rw [Use.take, if_neg (by simp [h.dropped handle])]
    exact h
  | proceed number =>
    rw [Use.take, proceed_of_none (by rw [h.untouched, List.getElem?_nil])]
    exact h
  | clone handle =>
    rw [Use.take, if_neg (by simp [h.dropped handle])]
    exact h
  | drop handle =>
    have hidle : use.isBusy handle = false := by
      rw [isBusy, h.untouched, List.any_nil]
    rw [Use.take, hidle]
    refine ⟨h.untouched, fun other => ?_⟩
    by_contra hholds
    have hother := holds_of_holds_drop (Bool.of_not_eq_false hholds)
    rw [h.dropped other] at hother
    cases hother
  | poll =>
    refine ⟨h.untouched, fun handle => ?_⟩
    change (use.gate.poll.2.handles[handle]?).getD false = false
    rw [(follows_poll use.gate).2]
    exact h.dropped handle
  | dropReceiver => exact ⟨h.untouched, h.dropped⟩

theorem Deserted.takeAll (h : use.Deserted) (acts : List (Act α)) :
    (use.takeAll acts).Deserted := by
  induction acts generalizing use with
  | nil => exact h
  | cons act acts ih => exact ih (h.take act)

theorem follows_take (act : Act α) : (use.take act).gate.Follows use.gate := by
  cases act with
  | claim handle outcome =>
    rw [take]
    split
    · exact ⟨fun _ => rfl, id⟩
    · exact .refl use.gate
  | proceed number => exact (onward_proceed number).follows
  | clone handle =>
    rw [take]
    split
    · exact ⟨id, id⟩
    · exact .refl use.gate
  | drop handle =>
    rw [take]
    split
    · exact .refl use.gate
    · exact follows_drop use.gate handle
  | poll => exact (follows_poll use.gate).1
  | dropReceiver => exact ⟨id, id⟩

theorem follows_takeAll (acts : List (Act α)) : (use.takeAll acts).gate.Follows use.gate := by
  induction acts generalizing use with
  | nil => exact .refl use.gate
  | cons act acts ih => exact ih.trans (follows_take act)

end Lasting

/-! ## What the receiver learns -/

section Outcome

variable {use : Use α} {first : Completion α} {rest : List (Completion α)}

/-- Of a gate with a winner, the receiver learns the winner's outcome or has learned nothing. -/
theorem Standing.resolutions_of_ended (h : use.Standing) (hled : use.LedBy first rest)
    (hended : first.progress = .ended) :
    use.gate.line = .delivered first.outcome ∧ use.resolutions = [] ∨
      use.gate.line = .closed ∧ use.gate.listening = false ∧
        (use.resolutions = [] ∨ use.resolutions = [some first.outcome]) := by
  have hfirst : ∀ other later, use.LedBy other later → other = first := by
    intro other later hother
    exact (List.cons.inj (hother.completions.symm.trans hled.completions)).1
  cases h with
  | unclaimed hnone => cases hnone.symm.trans hled.completions
  | deserted hnone => cases hnone.symm.trans hled.completions
  | underWay other later hother _ hprogress =>
    obtain rfl := hfirst other later hother
    rcases hprogress with ⟨hprogress, -⟩ | ⟨hprogress, -⟩
    · cases hended.symm.trans hprogress
    · cases hended.symm.trans hprogress
  | completed other later hother _ hlearned =>
    obtain rfl := hfirst other later hother
    exact hlearned

/-- A receiver that asks once the winner has ended has its outcome. -/
theorem Standing.poll_of_ended (h : use.Standing) (hkept : use.Kept) (hled : use.LedBy first rest)
    (hended : first.progress = .ended) : use.poll.resolutions = [some first.outcome] := by
  rcases h.resolutions_of_ended hled hended with
    ⟨hline, hnothing⟩ | ⟨-, hgone, hnothing | hlearned⟩
  · rw [(poll_delivered (hkept hnothing) hline).2, hnothing, List.nil_append]
  · rw [hkept hnothing] at hgone
    cases hgone
  · rw [(poll_unresolved (.inl hgone)).2, hlearned]

theorem Standing.poll_of_deserted (h : use.Standing) (hkept : use.Kept) (hnobody : use.Deserted) :
    use.poll.resolutions = [none] := by
  have hnot : ∀ {other later}, use.completions = other :: later → False := by
    intro other later hother
    cases hnobody.untouched.symm.trans hother
  cases h with
  | unclaimed _ _ hheld =>
    obtain ⟨handle, hholds⟩ := hheld
    rw [hnobody.dropped handle] at hholds
    cases hholds
  | deserted _ _ _ hline hlearned =>
    rcases hlearned with hnothing | ⟨hgone, hlearned⟩
    · rw [(poll_closed (hkept hnothing) hline).2, hnothing, List.nil_append]
    · rw [(poll_unresolved (.inl hgone)).2, hlearned]
  | underWay _ _ hled => exact (hnot hled.completions).elim
  | completed _ _ hled => exact (hnot hled.completions).elim

/-- A receiver learns nothing more once it has learned something for good. -/
theorem Standing.resolutions_eq (h : use.Standing) {learned : Option α}
    (hmem : learned ∈ use.resolutions) : use.resolutions = [learned] := by
  have hsingle : ∀ {only : Option α}, use.resolutions = [only] → use.resolutions = [learned] := by
    intro only honly
    rw [honly, List.mem_singleton] at hmem
    rw [honly, hmem]
  have hempty : use.resolutions = [] → use.resolutions = [learned] := by
    intro hnothing
    rw [hnothing] at hmem
    cases hmem
  cases h with
  | unclaimed _ _ _ _ hnothing => exact hempty hnothing
  | deserted _ _ _ _ hlearned =>
    rcases hlearned with hnothing | ⟨-, hlearned⟩
    · exact hempty hnothing
    · exact hsingle hlearned
  | underWay _ _ _ _ _ hnothing => exact hempty hnothing
  | completed _ _ _ _ hlearned =>
    rcases hlearned with ⟨-, hnothing⟩ | ⟨-, -, hnothing | hlearned⟩
    · exact hempty hnothing
    · exact hempty hnothing
    · exact hsingle hlearned

theorem Standing.length_resolutions_le (h : use.Standing) : use.resolutions.length ≤ 1 := by
  cases hlearned : use.resolutions with
  | nil => exact Nat.zero_le 1
  | cons learned others =>
    rw [← hlearned, h.resolutions_eq (hlearned ▸ List.mem_cons_self)]
    exact Nat.le_refl 1

/-- A receiver that asks learns for good what there is to learn, whatever comes after. -/
theorem Standing.resolutions_takeAll (h : use.Standing) {more : List (Act α)} {learned : Option α}
    (hasks : .poll ∈ more)
    (hlearns : ∀ before after, more = before ++ .poll :: after →
      (use.takeAll before).poll.resolutions = [learned]) :
    (use.takeAll more).resolutions = [learned] := by
  obtain ⟨before, after, hmore⟩ := List.append_of_mem hasks
  have hcourse : use.takeAll more = (use.takeAll before).poll.takeAll after := by
    rw [hmore, takeAll_append]
    rfl
  apply (h.takeAll more).resolutions_eq
  rw [hcourse]
  apply (resolutions_prefix_takeAll after).mem
  rw [hlearns before after hmore]
  exact List.mem_singleton_self learned

/-- An outcome that the receiver has learned is that of a winner that has ended. -/
theorem Standing.completed_of_outcome (h : use.Standing) {outcome : α}
    (hmem : some outcome ∈ use.resolutions) :
    ∃ first rest, use.LedBy first rest ∧ first.progress = .ended ∧ first.outcome = outcome := by
  have hlearned := h.resolutions_eq hmem
  cases h with
  | unclaimed _ _ _ _ hnothing => cases hnothing.symm.trans hlearned
  | deserted _ _ _ _ hother =>
    rcases hother with hnothing | ⟨-, hnone⟩
    · cases hnothing.symm.trans hlearned
    · cases hnone.symm.trans hlearned
  | underWay _ _ _ _ _ hnothing => cases hnothing.symm.trans hlearned
  | completed first rest hled hended hother =>
    refine ⟨first, rest, hled, hended, ?_⟩
    rcases hother with ⟨-, hnothing⟩ | ⟨-, -, hnothing | houtcome⟩
    · cases hnothing.symm.trans hlearned
    · cases hnothing.symm.trans hlearned
    · exact Option.some.inj (List.cons.inj (houtcome.symm.trans hlearned)).1

/-- A receiver that has learned that there will be no outcome was left alone with the gate. -/
theorem Standing.deserted_of_none (h : use.Standing) (hmem : none ∈ use.resolutions) :
    use.Deserted := by
  have hlearned := h.resolutions_eq hmem
  cases h with
  | unclaimed _ _ _ _ hnothing => cases hnothing.symm.trans hlearned
  | deserted hnone _ hheld => exact ⟨hnone, hheld⟩
  | underWay _ _ _ _ _ hnothing => cases hnothing.symm.trans hlearned
  | completed _ _ _ _ hother =>
    rcases hother with ⟨-, hnothing⟩ | ⟨-, -, hnothing | houtcome⟩
    · cases hnothing.symm.trans hlearned
    · cases hnothing.symm.trans hlearned
    · cases houtcome.symm.trans hlearned

theorem Standing.claimed_iff (h : use.Standing) :
    use.gate.claimed = true ↔ use.completions ≠ [] := by
  cases h with
  | unclaimed hnone hclaimed => simp [hnone, hclaimed]
  | deserted hnone hclaimed => simp [hnone, hclaimed]
  | underWay _ _ hled => simp [hled.completions, hled.claimed]
  | completed _ _ hled => simp [hled.completions, hled.claimed]

theorem Standing.ledBy (h : use.Standing) (hcompletions : use.completions = first :: rest) :
    use.LedBy first rest := by
  cases h with
  | unclaimed hnone => cases hnone.symm.trans hcompletions
  | deserted hnone => cases hnone.symm.trans hcompletions
  | underWay other later hled | completed other later hled =>
    obtain ⟨rfl, rfl⟩ := List.cons.inj (hled.completions.symm.trans hcompletions)
    exact hled

theorem Standing.progress_cases (h : use.Standing) (hled : use.LedBy first rest) :
    first.progress = .claimed ∧ use.gate.line = .waiting ∨
      first.progress = .sending true ∧ use.gate.line = .taken ∨
        first.progress = .ended ∧ use.gate.line ≠ .waiting := by
  have hfirst : ∀ {other later}, use.LedBy other later → other = first := fun hother =>
    (List.cons.inj (hother.completions.symm.trans hled.completions)).1
  cases h with
  | unclaimed hnone => cases hnone.symm.trans hled.completions
  | deserted hnone => cases hnone.symm.trans hled.completions
  | underWay other later hother _ hprogress =>
    obtain rfl := hfirst hother
    exact hprogress.imp_right .inl
  | completed other later hother hended hlearned =>
    obtain rfl := hfirst hother
    refine .inr (.inr ⟨hended, ?_⟩)
    rcases hlearned with ⟨hline, -⟩ | ⟨hline, -⟩
    · rw [hline]
      nofun
    · rw [hline]
      nofun

/-- Once its winner has taken the line, a gate is never reported as abandoned. -/
theorem Standing.isAbandoned_takeAll (h : use.Standing) (hled : use.LedBy first rest)
    (hprogress : first.progress ≠ .claimed) (more : List (Act α)) :
    (use.takeAll more).gate.isAbandoned = false := by
  have hgone : use.gate.line ≠ .waiting := by
    rcases h.progress_cases hled with ⟨hclaimed, -⟩ | ⟨-, hline⟩ | ⟨-, hline⟩
    · exact absurd hclaimed hprogress
    · rw [hline]
      nofun
    · exact hline
  exact isAbandoned_of_gone ((follows_takeAll more).gone hgone)

/-- The winner ends in two steps of its own. -/
theorem Standing.proceed_twice (h : use.Standing) (hled : use.LedBy first rest) :
    ((use.proceed 0).proceed 0).completions = { first with progress := .ended } :: rest := by
  rcases h.progress_cases hled with ⟨hprogress, hline⟩ | ⟨hprogress, -⟩ | ⟨hended, -⟩
  · have hmoved := hled.moved { use.gate with line := .taken } hled.claimed (.sending true)
    rw [hled.proceed_claimed hprogress hline, hmoved.proceed_sending rfl, hmoved.completions,
      List.set_cons_zero]
  · have hmoved := hled.moved (use.gate.send first.outcome) hled.claimed .ended
    rw [hled.proceed_sending hprogress, proceed_of_ended hmoved.getElem?_zero rfl,
      hmoved.completions]
  · have hsame := proceed_of_ended hled.getElem?_zero hended
    rw [hsame, hsame, hled.completions, ← hended]

end Outcome

/-- A gate delivers one outcome, in whatever order its users act.  Its completions are those that
were called for through held handles, in the order of the calls, and a handle is held from when it
was given until it is dropped.  The completion that claimed first wins, every other one has lost,
and the winner ends in two steps of its own, whatever the others do.  A receiver learns at most one
thing for good: the outcome of a winner that has ended, or that there will be none, when every
handle was dropped without a completion.  A receiver that is kept and asks does learn it.  A gate
once resolved stays so, and once its winner has taken the line it is never reported as
abandoned. -/
theorem one_outcome (acts : List (Act α)) :
    let use := (new : Use α).takeAll acts
    use.completions.map Completion.call = (new : Use α).calls acts ∧
    (.drop 0 ∉ acts → use.gate.holds 0 = true) ∧
    (∀ handle, use.gate.holds handle = true →
      (use.take (.clone handle)).gate.holds use.gate.clone.1 = true ∧
      (use.isBusy handle = false → (use.take (.drop handle)).gate.holds handle = false) ∧
      ∀ more, .drop handle ∉ more → (use.takeAll more).gate.holds handle = true) ∧
    (∀ first rest, use.completions = first :: rest →
      first.won = true ∧ (∀ later ∈ rest, later.answer? = some false) ∧
      ((use.proceed 0).proceed 0).completions = { first with progress := .ended } :: rest ∧
      (first.progress ≠ .claimed → ∀ more, (use.takeAll more).gate.isAbandoned = false)) ∧
    use.resolutions.length ≤ 1 ∧
    (∀ outcome, some outcome ∈ use.resolutions → ∃ first rest, use.completions = first :: rest ∧
      first.outcome = outcome ∧ first.answer? = some true) ∧
    (none ∈ use.resolutions →
      use.completions = [] ∧ ∀ handle, use.gate.holds handle = false) ∧
    (∀ more, .dropReceiver ∉ acts ++ more → .poll ∈ more →
      (∀ first rest, use.completions = first :: rest → first.answer? = some true →
        (use.takeAll more).resolutions = [some first.outcome]) ∧
      (use.completions = [] → (∀ handle, use.gate.holds handle = false) →
        (use.takeAll more).resolutions = [none])) ∧
    (use.gate.isResolved = true ↔ use.completions ≠ []) ∧
    (use.gate.isResolved = true → ∀ more, (use.takeAll more).gate.isResolved = true) := by
  intro use
  have hstanding : use.Standing := standing_new.takeAll acts
  refine ⟨?_, ?_, ?_, ?_, ?_, ?_, ?_, ?_, ?_, ?_⟩
  · exact map_call_takeAll acts
  · intro hkeeps
    exact holds_takeAll rfl hkeeps
  · intro handle hheld
    refine ⟨holds_take_clone hheld, not_holds_take_drop, ?_⟩
    intro more hmore
    exact holds_takeAll hheld hmore
  · intro first rest hcompletions
    have hled := hstanding.ledBy hcompletions
    refine ⟨hled.won, ?_, hstanding.proceed_twice hled, ?_⟩
    · intro later hlater
      obtain ⟨hlost, hended⟩ := hled.lost later hlater
      exact Completion.answer?_eq_some_iff.mpr ⟨hended, hlost⟩
    · exact hstanding.isAbandoned_takeAll hled
  · exact hstanding.length_resolutions_le
  · intro outcome hmem
    obtain ⟨first, rest, hled, hended, rfl⟩ := hstanding.completed_of_outcome hmem
    exact ⟨first, rest, hled.completions, rfl,
      Completion.answer?_eq_some_iff.mpr ⟨hended, hled.won⟩⟩
  · intro hmem
    have hnobody := hstanding.deserted_of_none hmem
    exact ⟨hnobody.untouched, hnobody.dropped⟩
  · intro more hkeeps hasks
    have hkept : ∀ before after, more = before ++ .poll :: after → (use.takeAll before).Kept := by
      intro before after hmore
      subst hmore
      rw [List.mem_append, not_or] at hkeeps
      apply (kept_takeAll_new hkeeps.1).takeAll
      exact fun hdropped => hkeeps.2 (List.mem_append_left _ hdropped)
    constructor
    · intro first rest hcompletions hanswer
      have hended := (Completion.answer?_eq_some_iff.mp hanswer).1
      refine hstanding.resolutions_takeAll hasks fun before after hmore => ?_
      obtain ⟨later, hlater⟩ := (hstanding.ledBy hcompletions).takeAll hended before
      exact (hstanding.takeAll before).poll_of_ended (hkept before after hmore) hlater hended
    · intro hnone hheld
      have hnobody : use.Deserted := ⟨hnone, hheld⟩
      refine hstanding.resolutions_takeAll hasks fun before after hmore => ?_
      exact (hstanding.takeAll before).poll_of_deserted (hkept before after hmore)
        (hnobody.takeAll before)
  · exact hstanding.claimed_iff
  · intro hresolved more
    exact (follows_takeAll more).claimed hresolved

/-- Two callers race: the second claims before the first has taken the line. -/
def racingActs : List (Act Nat) :=
  [.clone 0, .claim 1 7, .claim 0 8, .drop 0, .poll, .proceed 0, .proceed 0]

/-- Both callers give up their handles. -/
def leavingActs : List (Act Nat) :=
  [.clone 0, .drop 0, .drop 1]

/-- A caller completes the gate when nobody listens any more. -/
def unheardActs : List (Act Nat) :=
  [.dropReceiver, .claim 0 7, .proceed 0]

theorem one_outcome_raced :
    let race := (new : Use Nat).takeAll racingActs
    let left := (new : Use Nat).takeAll leavingActs
    race.completions.map Completion.call = [(1, 7), (0, 8)] ∧
      race.completions.map Completion.answer? = [some true, some false] ∧
      (race.takeAll [.poll, .poll]).resolutions = [some 7] ∧
      (left.takeAll [.poll]).resolutions = [none] ∧
      ((new : Use Nat).take .dropReceiver).gate.isAbandoned = true ∧
      ((new : Use Nat).takeAll unheardActs).gate.isAbandoned = false := by
  intro race left
  obtain ⟨hcalls, -, -, -, -, -, -, hlearns, -⟩ := one_outcome racingActs
  obtain ⟨-, -, -, -, -, -, -, hleft, -⟩ := one_outcome leavingActs
  obtain ⟨-, -, -, hunheard, -⟩ := one_outcome unheardActs
  have hfirst : race.completions = [⟨1, 7, true, .ended⟩, ⟨0, 8, false, .ended⟩] := by decide
  have hnobody : ∀ handle, left.gate.holds handle = false := by
    intro handle
    match handle with
    | 0 | 1 | _ + 2 => rfl
  obtain ⟨-, -, -, htaken⟩ := hunheard ⟨0, 7, true, .sending true⟩ [] rfl
  refine ⟨hcalls, ?_, ?_, ?_, rfl, htaken (by decide) []⟩
  · rw [hfirst]
    rfl
  · exact (hlearns [.poll, .poll] (by decide) (by decide)).1 _ _ hfirst rfl
  · exact (hleft [.poll] (by decide) (by decide)).2 rfl hnobody

/-- A completion that nobody comes between is a completion in one step. -/
theorem takeAll_complete (use : Use α) {handle : Nat} (hheld : use.gate.holds handle = true)
    (outcome : α) :
    let number := use.completions.length
    let after := use.takeAll [.claim handle outcome, .proceed number, .proceed number]
    after.gate = (use.gate.complete outcome).2 ∧
      (after.completions[number]?).bind Completion.answer? =
        some (use.gate.complete outcome).1 := by
  obtain ⟨⟨handles, claimed, line, listening⟩, completions, news⟩ := use
  cases claimed with
  | true =>
    simp [takeAll, take, hheld, claim, Gate.claim, proceed, complete, Completion.answer?,
      Completion.isUnderWay]
  | false =>
    have hdeliver : ∀ gate : Gate α, gate.deliver outcome =
        if gate.takeLine.1 then gate.takeLine.2.send outcome else gate.takeLine.2 := by
      intro gate
      rw [deliver]
      split
      · next htake => simp [htake]
      · next htake => simp [htake]
    simp [takeAll, take, hheld, claim, Gate.claim, proceed, complete, hdeliver, Completion.answer?,
      Completion.isUnderWay]

end Use

end SigmaCatalog.Gate
