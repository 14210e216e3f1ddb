import SigmaCatalog.Indexing.Run
import SigmaCatalog.Rehearsal.World

/-!
# Rehearsed sessions

A session takes one step after another against one store and one indexer, and reports what each step
found.
-/

namespace SigmaCatalog.Rehearsal

/-- How a pass of a planned compiler fails. -/
inductive CompilerFault where
  | fails (cause : CompileError)
  | breaksDown
  deriving Repr

/-- A compiler whose passes may fail as planned. -/
def plannedCompiler (discovery strictPass : Option CompilerFault) : Compiler :=
  fun text table strict =>
    match if strict then strictPass else discovery with
    | none => standardCompiler text table strict
    | some (.fails cause) => some (.error cause)
    | some .breaksDown => none

inductive Step where
  /-- Replaces the queues of planned faults of some kinds of calls. -/
  | planFaults (queues : List (CallKind × List Fault))
  | planResponses (responses : List (Option Rest.Response))
  | call (call : Call)
  | listIndices
  | showSchema (index : String)
  | showDocument (index id : String)
  | countDocuments (index : String)
  | makeReady (index : String) (schema : Json)
  | keepMappings (mappings : List FieldMapping)
  | indexRule (request : IndexRequest)
  | indexRules (requests : List IndexRequest)
  /-- Indexes a rule for a caller who does not wait. -/
  | submitRule (request : IndexRequest)
  | removeRule (request : RemovalRequest)
  | compileRule (text category : String)

/-- What a step found. -/
inductive Finding where
  | planned
  | replied (call : Call) (reply : call.Reply)
  | indices (names : List String)
  | schema (schema : Option Json)
  | document (document : Option StoredDocument)
  | count (count : Nat)
  /-- The step cannot look into the store, or never ended. -/
  | nothing
  | readiness (result : Except ReadinessError Unit)
  | kept (result : Except MappingError Unit)
  | indexed (outcome : Except IndexError Acknowledgement)
  | indexedAll (outcomes : List (Except IndexError Acknowledgement))
  | submitted
  | removed (outcome : Except IndexError Acknowledgement)
  | compiled (outcome : Except IndexError CompiledRule)

/-- A session: its world, its indexer, and the keeper of the mappings that a step hands in. -/
structure Session where
  world : World
  indexer : Indexer
  keeper : MappingKeeper

namespace Session

/-- Looks into the store, if it is in memory. -/
def inspect (session : Session) (look : Memory → Finding) : Finding × World :=
  match session.world.backing with
  | .memory memory => (look memory, session.world)
  | .endpoint _ => (.nothing, session.world)

/-- Runs a program; a program that never ends finds nothing. -/
def runFor {α : Type} (session : Session) (program : Program α) (found : α → Finding) :
    Finding × World :=
  match program.run World.handler session.world with
  | (some value, world) => (found value, world)
  | (none, world) => (.nothing, world)

/-- Compiles a rule without storing it, and reports what the passes report. -/
def compileRule (session : Session) (text category : String) : Finding × World :=
  let pass := session.indexer.tools.preview text category
  (.compiled (pass.outcome.getD (.error .cancelled)),
    session.world.recordAll (pass.notices.map .noticed))

/-- Indexes a rule for a caller who waits or not. -/
def indexRule (session : Session) (request : IndexRequest) (abandoned : Bool) :
    Except IndexError Acknowledgement × World :=
  let (result, world) :=
    (session.indexer.indexRule request).run World.handler { session.world with abandoned }
  (Indexer.outcomeOf result, { world with abandoned := false })

/-- Indexes rules that are submitted together. -/
def indexRules (session : Session) (requests : List IndexRequest) : Finding × World :=
  let (results, world) := runTogether (requests.map session.indexer.indexRule) session.world
  (.indexedAll (results.map Indexer.outcomeOf), world)

def take (session : Session) : Step → Finding × World
  | .planFaults queues =>
    let faults := queues.foldl (fun plan (kind, queue) => FaultPlan.replace plan kind queue)
      session.world.faults
    (.planned, { session.world with faults })
  | .planResponses responses =>
    (.planned, { session.world with responses := session.world.responses ++ responses })
  | .call call => session.runFor (Program.call call) (.replied call)
  | .listIndices => session.inspect fun memory => .indices memory.indices.keys
  | .showSchema index =>
    session.inspect fun memory => .schema ((memory.index? index).map Memory.Index.schema)
  | .showDocument index id => session.inspect fun memory => .document (memory.document? index id)
  | .countDocuments index => session.inspect fun memory => .count (memory.count index)
  | .makeReady index schema => session.runFor (SigmaCatalog.makeReady index schema) .readiness
  | .keepMappings mappings => session.runFor (session.keeper.keep mappings) .kept
  | .indexRule request =>
    let (outcome, world) := session.indexRule request false
    (.indexed outcome, world)
  | .indexRules requests => session.indexRules requests
  | .submitRule request => (.submitted, (session.indexRule request true).2)
  | .removeRule request => session.runFor (session.indexer.removeRule request) .removed
  | .compileRule text category => session.compileRule text category

/-- Takes a step and returns what it found, what happened in it, and the session after it. -/
def step (session : Session) (step : Step) : Finding × List Event × Session :=
  let fresh : Session := { session with world := { session.world with trace := [] } }
  let (finding, world) := fresh.take step
  (finding, world.trace, { fresh with world })

end Session

end SigmaCatalog.Rehearsal
