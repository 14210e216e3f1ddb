import SigmaCatalog.Proofs.Store.Keeping
import SigmaCatalog.Proofs.Store.Merging

/-!
# What programs come to on a shared store

A program that leaves the documents of an index alone comes to the same point whatever else goes on
in the store, as long as nobody removes the index.  This is said along the tree of the program.  Of
the answers to its actions nothing is assumed but this: an index that was found or created is there
from then on, and the creation of an index fails only where the index exists.

A turn of a fleet moves such a program one action closer to its goal, and leaves the index as it is.
-/

namespace SigmaCatalog

open Program

/-- What a program may do that leaves an index alone and comes to an end. -/
def Spares (index : String) : Action → Prop
  | .store call => call.index ≠ index
  | .storeWithin _ _ => False
  | .breakDown => False
  | _ => True

/-- A program that comes to a goal on any store in which the index is never removed.  The flag says
whether the index is known to exist. -/
inductive Reaches {α : Type} (index : String) (goal : Bool → Program α → Prop) :
    Bool → Program α → Prop
  | goal {known : Bool} {program : Program α} (h : goal known program) :
    Reaches index goal known program
  | spare {known : Bool} {action : Action} {next : action.Answer → Program α}
    (haction : Spares index action) (hnext : ∀ answer, Reaches index goal known (next answer)) :
    Reaches index goal known (.act action next)
  | look {known : Bool} {next : (Call.indexExists index).Reply → Program α}
    (hfound : Reaches index goal true (next (.ok true)))
    (hmissing : known = false → Reaches index goal false (next (.ok false))) :
    Reaches index goal known (.act (.store (.indexExists index)) next)
  | create {known : Bool} {schema : Json} {next : (Call.createIndex index schema).Reply → Program α}
    (hcreated : Reaches index goal true (next (.ok true)))
    (hexists : Reaches index goal true (next (.error (.indexExists index)))) :
    Reaches index goal known (.act (.store (.createIndex index schema)) next)

namespace Reaches

variable {α β : Type} {index : String} {goal : Bool → Program α → Prop} {known : Bool}

/-- Whatever a program does that leaves the index alone, the rest comes to the goal. -/
theorem of_only {program : Program β} {following : β → Program α}
    (h : Only (Spares index) program)
    (hfollowing : ∀ value, Reaches index goal known (following value)) :
    Reaches index goal known (program >>= following) := by
  induction h with
  | done value => exact hfollowing value
  | act haction _ ih => exact .spare haction ih

/-- Making an index ready succeeds, whoever else creates it in the meantime. -/
theorem of_makeReady {schema : Json} {following : Except ReadinessError Unit → Program α}
    (h : Reaches index goal true (following (.ok ()))) :
    Reaches index goal known (makeReady index schema >>= following) := by
  have hrecheck : Reaches index goal true
      (recheckReady index (.create index (.indexExists index)) >>= following) := by
    apply Reaches.look
    · exact h
    · intro habsurd
      cases habsurd
  apply Reaches.look
  · exact h
  · intro _
    exact .create h hrecheck

end Reaches

/-! ## Turns that leave an index alone -/

section Turns

variable {α : Type}

/-- Between two states of a fleet nothing in an index is written or removed, though the index itself
may have been created. -/
structure Fleet.Spared (index : String) (before after : Fleet α) : Prop where
  documents : ∀ id, after.memory.document? index id = before.memory.document? index id
  indexed : (before.memory.index? index).isSome = true → (after.memory.index? index).isSome = true
  history : ∃ records, after.history = before.history ++ records ∧
    ∀ record ∈ records, ∀ id, Memory.touches index id record.call record.reply = false

theorem Memory.touches_of_index_ne {index id : String} {call : Call} {reply : call.Reply}
    (h : call.index ≠ index) : touches index id call reply = false := by
  unfold touches
  split
  · exact decide_eq_false fun heq => h heq.1
  · exact decide_eq_false fun heq => h heq.1
  · rfl

theorem Memory.isSome_index?_perform {memory : Memory} {index : String}
    (h : (memory.index? index).isSome = true) (call : Call) :
    ((memory.perform call).2.index? index).isSome = true := by
  obtain ⟨found, hfound⟩ := Option.isSome_iff_exists.mp h
  obtain ⟨later, hlater, -⟩ := (memory.effect call).grows hfound
  rw [hlater]
  rfl

variable {fleet : Fleet α} {number : Nat} {time index : String}

/-- An answered action leads on to what is left of its program. -/
theorem Fleet.take_act {action : Action} {next : action.Answer → Program α}
    (h : fleet.programs[number]? = some (.act action next)) (hbreak : action ≠ .breakDown)
    (time : String) :
    ∃ answer, (fleet.take time (.advance number)).programs =
      fleet.programs.set number (next answer) := by
  rw [Fleet.take, h]
  cases action with
  | breakDown => exact absurd rfl hbreak
  | store | storeWithin | handOver | askAbandoned | notify | askTime => exact ⟨_, rfl⟩

theorem Fleet.take_storeWithin {seconds : Nat} {call : Call}
    {next : Option call.Reply → Program α}
    (h : fleet.programs[number]? = some (.act (.storeWithin seconds call) next)) (time : String) :
    fleet.take time (.advance number) =
      { memory := (fleet.memory.perform call).2
        programs := fleet.programs.set number (next (some (fleet.memory.perform call).1))
        history := fleet.history ++ [⟨some number, call, (fleet.memory.perform call).1⟩] } := by
  rw [Fleet.take, h]
  rfl

/-- A store call that writes nothing in an index leaves the index alone. -/
theorem Fleet.spared_of_store {call : Call} {next : call.Reply → Program α}
    (h : fleet.programs[number]? = some (.act (.store call) next))
    (huntouched : ∀ id, Memory.touches index id call (fleet.memory.perform call).1 = false) :
    fleet.Spared index (fleet.take time (.advance number)) := by
  rw [Fleet.take_store h]
  constructor
  · intro id
    exact (fleet.memory.effect call).document?_eq (huntouched id)
  · intro hsome
    exact Memory.isSome_index?_perform hsome call
  · exact ⟨_, rfl, List.forall_mem_singleton.mpr huntouched⟩

theorem Fleet.spared_of_spares {action : Action} {next : action.Answer → Program α}
    (h : fleet.programs[number]? = some (.act action next)) (hspares : Spares index action) :
    fleet.Spared index (fleet.take time (.advance number)) := by
  cases action with
  | store call =>
    have hindex : call.index ≠ index := hspares
    exact Fleet.spared_of_store h fun id => Memory.touches_of_index_ne hindex
  | storeWithin | breakDown => exact hspares.elim
  | handOver | askAbandoned | notify | askTime =>
    rw [Fleet.take, h]
    exact ⟨fun _ => rfl, id, [], (List.append_nil _).symm, List.forall_mem_nil _⟩

variable {goal : Bool → Program α → Prop} {known : Bool} {program : Program α}

/-- A turn of a program on the way to its goal leaves the index alone and brings the program one
action further, unless it is there already. -/
theorem Reaches.take (h : Reaches index goal known program)
    (hprogram : fleet.programs[number]? = some program)
    (hknown : known = true → (fleet.memory.index? index).isSome = true) (time : String) :
    goal known program ∨
      fleet.Spared index (fleet.take time (.advance number)) ∧
      ∃ later left, (fleet.take time (.advance number)).programs = fleet.programs.set number left ∧
        Reaches index goal later left ∧
        (later = true →
          ((fleet.take time (.advance number)).memory.index? index).isSome = true) := by
  cases h with
  | goal h => exact .inl h
  | @spare _ action next haction hnext =>
    have hbreak : action ≠ .breakDown := by
      rintro rfl
      exact haction
    have hspared : fleet.Spared index (fleet.take time (.advance number)) :=
      Fleet.spared_of_spares hprogram haction
    obtain ⟨answer, hprograms⟩ := Fleet.take_act hprogram hbreak time
    exact .inr ⟨hspared, known, next answer, hprograms, hnext answer,
      fun hlater => hspared.indexed (hknown hlater)⟩
  | look hfound hmissing =>
    refine .inr ⟨Fleet.spared_of_store hprogram fun _ => rfl, ?_⟩
    rw [Fleet.take_store hprogram, Memory.perform_indexExists]
    cases hindex : fleet.memory.index? index with
    | some found => exact ⟨true, _, rfl, hfound, fun _ => rfl⟩
    | none =>
      have hunknown : known = false := by
        cases known with
        | false => rfl
        | true =>
          rw [hindex] at hknown
          exact absurd (hknown rfl) Bool.false_ne_true
      exact ⟨false, _, rfl, hmissing hunknown, fun habsurd => by cases habsurd⟩
  | @create _ schema next hcreated hexists =>
    refine .inr ⟨Fleet.spared_of_store hprogram fun _ => rfl, ?_⟩
    rw [Fleet.take_store hprogram]
    cases hindex : fleet.memory.index? index with
    | some found =>
      rw [Memory.perform_createIndex_of_some hindex]
      exact ⟨true, _, rfl, hexists, fun _ => congrArg Option.isSome hindex⟩
    | none =>
      rw [Memory.perform_createIndex_of_none hindex]
      exact ⟨true, _, rfl, hcreated, fun _ => Memory.isSome_index?_setIndex _ _ _⟩

end Turns

end SigmaCatalog
