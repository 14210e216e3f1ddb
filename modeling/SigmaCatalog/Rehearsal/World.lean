import SigmaCatalog.Program
import SigmaCatalog.Rehearsal.Fault
import SigmaCatalog.Rest.Response
import SigmaCatalog.Store.Memory

/-!
# The world of a rehearsal

A rehearsal runs programs against a store in memory, or against planned responses to the requests
of a store behind an address.  It keeps a trace of everything that happened.
-/

namespace SigmaCatalog.Rehearsal

/-- The store behind the calls. -/
inductive Backing where
  | memory (memory : Memory)
  | endpoint (endpoint : Rest.Endpoint)

inductive Event where
  | called (call : Call)
  | requested (request : Rest.Request)
  | noticed (notice : Notice)
  | handedOver (mappings : List FieldMapping)

/-- The state of a rehearsal. -/
structure World where
  backing : Backing
  faults : FaultPlan := .empty
  /-- The responses to come; `none` is a request that fails. -/
  responses : List (Option Rest.Response) := []
  /-- How a keeper of field mappings outside the store answers. -/
  keeperAnswer : Except MappingError Unit := .ok ()
  /-- Whether nobody waits for the outcome of the present run. -/
  abandoned : Bool := false
  time : String
  /-- What has happened, in order. -/
  trace : List Event := []

namespace World

/-- The world after an event. -/
def record (world : World) (event : Event) : World :=
  { world with trace := world.trace ++ [event] }

def recordAll (world : World) (events : List Event) : World :=
  { world with trace := world.trace ++ events }

/-- The response when none is planned any more. -/
def unplanned : Rest.Response :=
  { status := 500, text := "unscripted" }

/-- The next response, and the world without it. -/
def nextResponse (world : World) : Option Rest.Response × World :=
  match world.responses with
  | [] => (some unplanned, world)
  | response :: responses => (response, { world with responses })

/-- Sends the request of a call and reads the response. -/
def exchange (world : World) (endpoint : Rest.Endpoint) (call : Call) : call.Reply × World :=
  let request := Rest.Request.ofCall endpoint call
  let (response, world) := (world.record (.requested request)).nextResponse
  let (reply, warnings) :=
    Rest.interpretOutcome call (response.map (Rest.received request.method))
  (reply, world.recordAll (warnings.map fun warning => .noticed (.warning warning)))

/-- The answer of the store to a call. -/
def answer (world : World) (call : Call) : call.Reply × World :=
  match world.backing with
  | .memory memory =>
    let (reply, memory) := memory.perform call
    (reply, { world with backing := .memory memory })
  | .endpoint endpoint => world.exchange endpoint call

/-- Makes a call; there is no reply when none ever comes. -/
def call (world : World) (call : Call) : Option call.Reply × World :=
  let world := world.record (.called call)
  let (fault, faults) := world.faults.take call.kind
  let world := { world with faults }
  match fault.fate call with
  | .replied reply => (some reply, world)
  | .unanswered => (none, world)
  | .answered rival =>
    let (reply, world) := world.answer call
    match rival with
    | none => (some reply, world)
    | some other => (some reply, (world.answer other).2)

/-- Performs the actions of a program.  A call with a time limit that is never answered is given up;
any other call that is never answered ends the program. -/
def handler : Program.Handler World
  | .store call, world => world.call call
  | .storeWithin _ call, world =>
    let (reply, world) := world.call call
    (some reply, world)
  | .handOver mappings, world => (some world.keeperAnswer, world.record (.handedOver mappings))
  | .askAbandoned, world => (some world.abandoned, world)
  | .notify notice, world => (some (), world.record (.noticed notice))
  | .askTime, world => (some world.time, world)
  | .breakDown, world => (none, world)

end World

/-- How far a program has come when others may go on. -/
inductive Progress (α : Type) where
  | ended (result : Option α)
  /-- The program waits until it gives up a call. -/
  | waiting (rest : Program α)

/-- Runs a program up to its end or to the first call that it must give up. -/
def advance {α : Type} : Program α → World → Progress α × World
  | .done value, world => (.ended (some value), world)
  | .act (.storeWithin _ call) next, world =>
    match world.call call with
    | (some reply, world) => advance (next (some reply)) world
    | (none, world) => (.waiting (next none), world)
  | .act action next, world =>
    match World.handler action world with
    | (some answer, world) => advance (next answer) world
    | (none, world) => (.ended none, world)

/-- Runs what is left of a program, after all others have come as far as they can. -/
def resume {α : Type} : Progress α → World → Option α × World
  | .ended result, world => (result, world)
  | .waiting rest, world => rest.run World.handler world

/-- Does something for each element of a list in order, in a world that changes. -/
def inOrder {α β : Type} (step : α → World → β × World) : List α → World → List β × World
  | [], world => ([], world)
  | element :: elements, world =>
    let (result, world) := step element world
    let (results, world) := inOrder step elements world
    (result :: results, world)

/-- Runs programs that are started together: each goes as far as it can, and then those that wait go
on. -/
def runTogether {α : Type} (programs : List (Program α)) (world : World) :
    List (Option α) × World :=
  let (progress, world) := inOrder advance programs world
  inOrder resume progress world

end SigmaCatalog.Rehearsal
