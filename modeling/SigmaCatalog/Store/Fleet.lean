import SigmaCatalog.Store.Memory.Handler

/-!
# Programs that run at once

A fleet is any number of programs over one store in memory.  They take turns in any order, and each
turn is one action; calls of other clients come in between, and a call of a program may fail without
having any effect.  The history of a fleet lists the store calls with their replies.
-/

namespace SigmaCatalog

/-- A store call that was answered, and the number of the program that made it; calls of other
clients have none. -/
structure Fleet.Record where
  maker : Option Nat
  call : Call
  reply : call.Reply

/-- Programs over one store. -/
structure Fleet (α : Type) where
  memory : Memory
  /-- What is left of each program. -/
  programs : List (Program α)
  history : List Fleet.Record := []

inductive Fleet.Turn where
  /-- A program performs its next action. -/
  | advance (number : Nat)
  /-- The next action of a program, a store call, fails and has no effect. -/
  | fail (number : Nat) (cause : StoreError)
  /-- Another client makes a call. -/
  | foreign (call : Call)

namespace Fleet

variable {α : Type}

/-- The fleet after a store call that was answered. -/
def record (fleet : Fleet α) (maker : Option Nat) (call : Call) (reply : call.Reply) : Fleet α :=
  { fleet with history := fleet.history ++ [⟨maker, call, reply⟩] }

/-- The fleet with what is left of a program. -/
def setProgram (fleet : Fleet α) (number : Nat) (program : Program α) : Fleet α :=
  { fleet with programs := fleet.programs.set number program }

/-- The fleet after an action of a program. -/
def perform (fleet : Fleet α) (time : String) (number : Nat) :
    (action : Action) → (action.Answer → Program α) → Fleet α
  | .store call, next =>
    let (reply, memory) := fleet.memory.perform call
    ({ fleet with memory }.record (some number) call reply).setProgram number (next reply)
  | .storeWithin _ call, next =>
    let (reply, memory) := fleet.memory.perform call
    ({ fleet with memory }.record (some number) call reply).setProgram number
      (next (some reply : Option call.Reply))
  | action, next =>
    match Memory.handler time action fleet.memory with
    | (some answer, memory) => { fleet with memory }.setProgram number (next answer)
    | (none, memory) => { fleet with memory }

/-- The fleet after the next action of a program has failed, if it is a store call. -/
def refuse (fleet : Fleet α) (cause : StoreError) (number : Nat) :
    (action : Action) → (action.Answer → Program α) → Fleet α
  | .store call, next =>
    (fleet.record (some number) call (.error cause)).setProgram number
      (next (.error cause : call.Reply))
  | .storeWithin _ call, next =>
    (fleet.record (some number) call (.error cause)).setProgram number
      (next (some (.error cause) : Option call.Reply))
  | _, _ => fleet

/-- The fleet after a turn; a program that has ended has no turns left. -/
def take (time : String) (fleet : Fleet α) : Turn → Fleet α
  | .advance number =>
    match fleet.programs[number]? with
    | some (.act action next) => fleet.perform time number action next
    | _ => fleet
  | .fail number cause =>
    match fleet.programs[number]? with
    | some (.act action next) => fleet.refuse cause number action next
    | _ => fleet
  | .foreign call =>
    let (reply, memory) := fleet.memory.perform call
    { fleet with memory }.record none call reply

def takeAll (time : String) (fleet : Fleet α) (turns : List Turn) : Fleet α :=
  turns.foldl (take time) fleet

/-- The value of a program that has ended. -/
def result? (fleet : Fleet α) (number : Nat) : Option α :=
  match fleet.programs[number]? with
  | some (.done value) => some value
  | _ => none

end Fleet

end SigmaCatalog
