/-!
# Completion gates

A gate delivers one outcome to one receiver.  Any number of handles lead to it, and the first
completion through any of them wins.  A completion takes three steps, between which others may act:
it claims the gate, it takes the line to the receiver from the gate, and it sends its outcome down
the line.  The receiver learns that there will be no outcome when every handle is dropped while the
gate still has the line.
-/

namespace SigmaCatalog

/-- The line from a gate to its receiver. -/
inductive Gate.Line (α : Type) where
  /-- Nothing has been sent, and the gate has the line. -/
  | waiting
  /-- Nothing has been sent, and a completion has the line. -/
  | taken
  | delivered (outcome : α)
  /-- Nothing more will come. -/
  | closed
  deriving DecidableEq, Repr

/-- A gate for outcomes of type `α`. -/
structure Gate (α : Type) where
  /-- For each handle ever made, whether it is still held. -/
  handles : List Bool
  /-- Whether a completion has claimed the gate. -/
  claimed : Bool
  line : Gate.Line α
  /-- Whether the receiver is still held. -/
  listening : Bool
  deriving Repr

/-- What the receiver learns when it asks. -/
inductive Gate.News (α : Type) where
  | pending
  | outcome (outcome : α)
  /-- Every handle was dropped without a delivery. -/
  | nothing
  /-- The receiver itself is gone. -/
  | gone
  deriving DecidableEq, Repr

namespace Gate

variable {α : Type}

def new : Gate α :=
  { handles := [true], claimed := false, line := .waiting, listening := true }

def holds (gate : Gate α) (handle : Nat) : Bool :=
  gate.handles[handle]?.getD false

/-- Another handle of the gate, and its number. -/
def clone (gate : Gate α) : Nat × Gate α :=
  (gate.handles.length, { gate with handles := gate.handles ++ [true] })

/-- Drops a handle; with the last one goes what could still be sent. -/
def drop (gate : Gate α) (handle : Nat) : Gate α :=
  let handles := gate.handles.set handle false
  let line :=
    match gate.line with
    | .waiting => if handles.contains true then .waiting else .closed
    | line => line
  { gate with handles, line }

/-- Whether a completion has claimed the gate. -/
def isResolved (gate : Gate α) : Bool :=
  gate.claimed

/-- Whether the receiver is gone while the gate has the line. -/
def isAbandoned (gate : Gate α) : Bool :=
  match gate.line with
  | .waiting => !gate.listening
  | _ => false

/-- Claims the gate; only the first claim succeeds. -/
def claim (gate : Gate α) : Bool × Gate α :=
  (!gate.claimed, { gate with claimed := true })

/-- Takes the line from the gate; the answer is whether it was there. -/
def takeLine (gate : Gate α) : Bool × Gate α :=
  match gate.line with
  | .waiting => (true, { gate with line := .taken })
  | _ => (false, gate)

/-- Sends an outcome down the line; it is lost when nobody listens. -/
def send (gate : Gate α) (outcome : α) : Gate α :=
  { gate with line := if gate.listening then .delivered outcome else .closed }

/-- Takes the line and sends an outcome down it, if the gate has the line. -/
def deliver (gate : Gate α) (outcome : α) : Gate α :=
  match gate.takeLine with
  | (true, gate) => gate.send outcome
  | (false, gate) => gate

/-- Completes the gate with an outcome; the answer is whether this completion won. -/
def complete (gate : Gate α) (outcome : α) : Bool × Gate α :=
  match gate.claim with
  | (true, claimed) => (true, claimed.deliver outcome)
  | (false, claimed) => (false, claimed)

/-- What the receiver learns; it is gone once it has learned anything but that it must wait. -/
def poll (gate : Gate α) : News α × Gate α :=
  if !gate.listening then (.gone, gate)
  else match gate.line with
    | .waiting | .taken => (.pending, gate)
    | .delivered outcome => (.outcome outcome, { gate with line := .closed, listening := false })
    | .closed => (.nothing, { gate with listening := false })

/-- Drops the receiver; the answer is whether it was held. -/
def dropReceiver (gate : Gate α) : Bool × Gate α :=
  (gate.listening, { gate with listening := false })

end Gate

end SigmaCatalog
