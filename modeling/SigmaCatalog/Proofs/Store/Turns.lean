import SigmaCatalog.Proofs.Store.Reaching
import SigmaCatalog.Proofs.Store.WriteBack

/-!
# What a turn does

A turn of a fleet belongs to one program or to another client.  It leaves what is left of the other
programs as it is, and it changes the store only through the call that it adds to the history.
-/

namespace SigmaCatalog.Fleet

variable {α : Type}

/-- The number of the program whose turn it is; other clients have none. -/
def Turn.mover : Turn → Option Nat
  | advance number => some number
  | fail number _ => some number
  | foreign _ => none

/-- The calls of a program that were answered, in their order. -/
def callsOf (fleet : Fleet α) (number : Nat) : List Record :=
  fleet.history.filter fun record => record.maker = some number

/-- What a turn adds to the history of a fleet, and what that has done to the store. -/
inductive Adds (before after : Fleet α) (mover : Option Nat) : Prop
  | nothing (hmemory : after.memory = before.memory) (hhistory : after.history = before.history)
  | call {call : Call} {reply : call.Reply}
    (hhistory : after.history = before.history ++ [⟨mover, call, reply⟩])
    (heffect : before.memory.Effect call reply after.memory)

variable {fleet : Fleet α} {number : Nat} {program left : Program α}

theorem getElem?_set_of_eq_some {programs : List (Program α)}
    (h : programs[number]? = some program) : (programs.set number left)[number]? = some left :=
  List.getElem?_set_self (List.getElem?_eq_some_iff.mp h).1

theorem touches_error (index id : String) (call : Call) (cause : StoreError) :
    Memory.touches index id call (.error cause) = false := by
  cases call <;> rfl

theorem take_notify {notice : Notice} {next : Unit → Program α}
    (h : fleet.programs[number]? = some (.act (.notify notice) next)) (time : String) :
    fleet.take time (.advance number) =
      { fleet with programs := fleet.programs.set number (next ()) } := by
  rw [take, h]
  rfl

theorem take_fail_notify {notice : Notice} {next : Unit → Program α}
    (h : fleet.programs[number]? = some (.act (.notify notice) next)) (time : String)
    (cause : StoreError) : fleet.take time (.fail number cause) = fleet := by
  rw [take, h]
  rfl

theorem adds_advance (fleet : Fleet α) (time : String) (number : Nat) :
    fleet.Adds (fleet.take time (.advance number)) (some number) := by
  cases hprogram : fleet.programs[number]? with
  | none =>
    rw [take_none hprogram]
    exact .nothing rfl rfl
  | some program =>
    cases program with
    | done value =>
      rw [take_done hprogram]
      exact .nothing rfl rfl
    | act action next =>
      cases action with
      | store call =>
        rw [take_store hprogram]
        exact .call rfl (fleet.memory.effect call)
      | storeWithin seconds call =>
        rw [take_storeWithin hprogram]
        exact .call rfl (fleet.memory.effect call)
      | handOver | askAbandoned | notify | askTime | breakDown =>
        rw [take, hprogram]
        exact .nothing rfl rfl

theorem adds_fail (fleet : Fleet α) (time : String) (number : Nat) (cause : StoreError) :
    fleet.Adds (fleet.take time (.fail number cause)) (some number) := by
  cases hprogram : fleet.programs[number]? with
  | none =>
    rw [take_fail_none hprogram]
    exact .nothing rfl rfl
  | some program =>
    cases program with
    | done value =>
      rw [take_fail_done hprogram]
      exact .nothing rfl rfl
    | act action next =>
      rw [take, hprogram]
      cases action with
      | store call =>
        exact .call rfl (.none fun index id => touches_error index id call cause)
      | storeWithin seconds call =>
        exact .call rfl (.none fun index id => touches_error index id call cause)
      | handOver | askAbandoned | notify | askTime | breakDown => exact .nothing rfl rfl

/-- Whatever turn it is, the store changes only through a call in the history. -/
theorem adds_take (fleet : Fleet α) (time : String) (turn : Turn) :
    fleet.Adds (fleet.take time turn) turn.mover := by
  cases turn with
  | advance number => exact fleet.adds_advance time number
  | fail number cause => exact fleet.adds_fail time number cause
  | foreign call => exact .call rfl (fleet.memory.effect call)

/-- A turn leaves what is left of the other programs as it is. -/
theorem take_programs_other {turn : Turn} (h : turn.mover ≠ some number) (time : String) :
    (fleet.take time turn).programs[number]? = fleet.programs[number]? := by
  have hset {mover : Nat} (hne : some mover ≠ some number) (left : Program α) :
      (fleet.programs.set mover left)[number]? = fleet.programs[number]? :=
    List.getElem?_set_ne fun heq => hne (congrArg some heq)
  cases turn with
  | foreign call => rfl
  | advance mover =>
    cases hprogram : fleet.programs[mover]? with
    | none => rw [take_none hprogram]
    | some program =>
      cases program with
      | done value => rw [take_done hprogram]
      | act action next =>
        rw [take, hprogram]
        cases action with
        | store | storeWithin | handOver | askAbandoned | notify | askTime => exact hset h _
        | breakDown => rfl
  | fail mover cause =>
    cases hprogram : fleet.programs[mover]? with
    | none => rw [take_fail_none hprogram]
    | some program =>
      cases program with
      | done value => rw [take_fail_done hprogram]
      | act action next =>
        rw [take, hprogram]
        cases action with
        | store | storeWithin => exact hset h _
        | handOver | askAbandoned | notify | askTime | breakDown => rfl

section Records

variable {before after : Fleet α} {mover : Option Nat}

theorem Adds.exists_history (h : before.Adds after mover) :
    ∃ records, after.history = before.history ++ records ∧
      ∀ record ∈ records, record.maker = mover := by
  cases h with
  | nothing _ hhistory => exact ⟨[], by rw [hhistory, List.append_nil], List.forall_mem_nil _⟩
  | call hhistory => exact ⟨_, hhistory, List.forall_mem_singleton.mpr rfl⟩

/-- No index is removed in a turn. -/
theorem Adds.indexed (h : before.Adds after mover) {index : String}
    (hindexed : (before.memory.index? index).isSome = true) :
    (after.memory.index? index).isSome = true := by
  cases h with
  | nothing hmemory => rw [hmemory, hindexed]
  | call _ heffect =>
    obtain ⟨found, hfound⟩ := Option.isSome_iff_exists.mp hindexed
    obtain ⟨later, hlater, -⟩ := heffect.grows hfound
    rw [hlater, Option.isSome_some]

/-- The turns of others add nothing to the calls of a program. -/
theorem Adds.callsOf_eq (h : before.Adds after mover) (hmover : mover ≠ some number) :
    after.callsOf number = before.callsOf number := by
  obtain ⟨records, hhistory, hmakers⟩ := h.exists_history
  have hnone : records.filter (fun record => record.maker = some number) = [] := by
    rw [List.filter_eq_nil_iff]
    intro record hrecord heq
    exact hmover ((hmakers record hrecord).symm.trans (of_decide_eq_true heq))
  rw [callsOf, hhistory, List.filter_append, hnone, List.append_nil, callsOf]

theorem callsOf_append_self {record : Record}
    (hhistory : after.history = before.history ++ [record]) (hmaker : record.maker = some number) :
    after.callsOf number = before.callsOf number ++ [record] := by
  rw [callsOf, hhistory, List.filter_append, List.filter_singleton, callsOf]
  simp [hmaker]

end Records

end SigmaCatalog.Fleet
