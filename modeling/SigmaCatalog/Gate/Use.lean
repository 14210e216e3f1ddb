import SigmaCatalog.Gate

/-!
# Gates in use

Any number of callers use one gate at once, and their steps come in any order.  A completion through
a handle claims the gate, and if its claim was the first it goes on in two further steps: it takes
the line from the gate, and it sends its outcome.  A handle cannot be dropped while a completion
through it is under way.  Asking whether a gate is resolved or abandoned changes nothing, so what is
answered between two steps is said by the state between them.
-/

namespace SigmaCatalog.Gate

variable {α : Type}

/-- How far a completion has come. -/
inductive Progress where
  /-- Its claim was the first. -/
  | claimed
  /-- It has asked for the line, and has it or not. -/
  | sending (hasLine : Bool)
  | ended
  deriving DecidableEq, Repr

/-- A completion that has claimed the gate or tried to. -/
structure Completion (α : Type) where
  handle : Nat
  outcome : α
  /-- Whether its claim was the first. -/
  won : Bool
  progress : Progress
  deriving DecidableEq, Repr

namespace Completion

def isUnderWay (completion : Completion α) : Bool :=
  completion.progress != .ended

/-- What a completion answers when it has ended: whether it has won. -/
def answer? (completion : Completion α) : Option Bool :=
  if completion.isUnderWay then none else some completion.won

end Completion

/-- A gate in use: the completions in the order of their claims, and what the receiver has learned,
in order. -/
structure Use (α : Type) where
  gate : Gate α
  completions : List (Completion α)
  news : List (News α)
  deriving Repr

/-- A step of a caller or of the receiver. -/
inductive Act (α : Type) where
  /-- The first step of a completion through a handle. -/
  | claim (handle : Nat) (outcome : α)
  /-- The next step of a completion. -/
  | proceed (completion : Nat)
  | clone (handle : Nat)
  | drop (handle : Nat)
  | poll
  | dropReceiver
  deriving DecidableEq, Repr

namespace Use

def new : Use α :=
  { gate := Gate.new, completions := [], news := [] }

/-- Whether a completion through a handle is under way. -/
def isBusy (use : Use α) (handle : Nat) : Bool :=
  use.completions.any fun completion => completion.handle == handle && completion.isUnderWay

/-- Claims the gate for a completion; one whose claim is not the first ends at once. -/
def claim (use : Use α) (handle : Nat) (outcome : α) : Use α :=
  let (won, gate) := use.gate.claim
  let progress := if won then .claimed else .ended
  { use with gate, completions := use.completions ++ [{ handle, outcome, won, progress }] }

/-- Lets a completion that is under way take its next step. -/
def proceed (use : Use α) (number : Nat) : Use α :=
  match use.completions[number]? with
  | none => use
  | some completion =>
    let moved (progress : Progress) : List (Completion α) :=
      use.completions.set number { completion with progress }
    match completion.progress with
    | .claimed =>
      let (hasLine, gate) := use.gate.takeLine
      { use with gate, completions := moved (.sending hasLine) }
    | .sending hasLine =>
      { use with
        gate := if hasLine then use.gate.send completion.outcome else use.gate
        completions := moved .ended }
    | .ended => use

def poll (use : Use α) : Use α :=
  let (news, gate) := use.gate.poll
  { use with gate, news := use.news ++ [news] }

/-- The gate in use after a step; a step through a handle that is not held does nothing. -/
def take (use : Use α) : Act α → Use α
  | .claim handle outcome => if use.gate.holds handle then use.claim handle outcome else use
  | .proceed number => use.proceed number
  | .clone handle => if use.gate.holds handle then { use with gate := use.gate.clone.2 } else use
  | .drop handle =>
    if use.isBusy handle then use else { use with gate := use.gate.drop handle }
  | .poll => use.poll
  | .dropReceiver => { use with gate := use.gate.dropReceiver.2 }

def takeAll (use : Use α) (acts : List (Act α)) : Use α :=
  acts.foldl take use

end Use

end SigmaCatalog.Gate
