import SigmaCatalog.Indexing.TwoPass
import SigmaCatalog.Store.MappingKeeper

/-!
# Indexing runs

A run makes the index of rules ready, compiles the rule in two passes, writes its document within a
time limit, and then records the mappings of its fields, unless nobody waits for the outcome any
more.  A failure before the mappings ends the run; the mappings never change its outcome.
-/

namespace SigmaCatalog

/-- What runs work with. -/
structure Indexer where
  tools : Toolchain
  rulesIndex : String
  /-- The seconds that the write of a rule may take. -/
  writeTimeout : Nat
  keeper : MappingKeeper

namespace Indexer

/-- Reports that a stage is entered. -/
def enter (stage : Stage) : Program Unit :=
  Program.notify (.entered stage)

/-- The value of a pass, after its notices. -/
def afterPass {α : Type} (pass : Pass α) : Program (Except IndexError α) := do
  Program.notifyAll pass.notices
  match pass.outcome with
  | some outcome => return outcome
  | none => Program.breakDown

/-- Writes the document of a rule. -/
def persist (indexer : Indexer) (compiled : CompiledRule) (refresh : RefreshPolicy) :
    Program (Except IndexError Acknowledgement) := do
  enter .persisting
  let body := compiled.document (← Program.perform .askTime)
  let write := Call.write indexer.rulesIndex compiled.id body none indexer.writeTimeout refresh
  match ← Program.perform (.storeWithin indexer.writeTimeout write) with
  | none => return .error (.timedOut indexer.writeTimeout)
  | some (.error cause) => return .error (.store cause)
  | some (.ok acknowledgement) => return .ok acknowledgement

/-- Records the mappings of the fields that a stored rule consults. -/
def recordMappings (indexer : Indexer) (compiled : CompiledRule) (table : Table String) :
    Program Unit := do
  enter .mappingUpdate
  let abandoned : Bool ← Program.perform .askAbandoned
  if abandoned then return
  let mappings :=
    FieldMapping.ofFields compiled.category indexer.keeper.schema table compiled.fields
  match ← indexer.keeper.keep mappings with
  | .ok () => return
  | .error _ => Program.warn .mappingsNotRecorded

/-- Stores a compiled rule and records its mappings. -/
def file (indexer : Indexer) (compiled : CompiledRule) (table : Table String)
    (refresh : RefreshPolicy) : Program (Except IndexError Acknowledgement) := do
  match ← indexer.persist compiled refresh with
  | .error cause => return .error cause
  | .ok acknowledgement =>
    indexer.recordMappings compiled table
    enter .done
    return .ok acknowledgement

/-- Carries out a request to index a rule. -/
def execute (indexer : Indexer) (request : IndexRequest) :
    Program (Except IndexError Acknowledgement) := do
  match request.validate with
  | .error fault => return .error (.invalidRequest fault)
  | .ok () =>
    enter .initializing
    match ← makeReady indexer.rulesIndex IndexSchema.rules with
    | .error cause => return .error (.notReady cause)
    | .ok () =>
      match ← afterPass (indexer.tools.compileTwice request) with
      | .error cause => return .error cause
      | .ok (compiled, table) => indexer.file compiled table request.refresh

/-- Carries out a request to index a rule and reports a failure. -/
def indexRule (indexer : Indexer) (request : IndexRequest) :
    Program (Except IndexError Acknowledgement) := do
  match ← indexer.execute request with
  | .ok acknowledgement => return .ok acknowledgement
  | .error cause =>
    Program.warn .indexingFailed
    return .error cause

/-- The outcome of a run, which has none when the run broke down or never ended. -/
def outcomeOf (result : Option (Except IndexError Acknowledgement)) :
    Except IndexError Acknowledgement :=
  result.getD (.error .cancelled)

/-- Carries out a request to remove a rule.  Its field mappings stay. -/
def removeRule (indexer : Indexer) (request : RemovalRequest) :
    Program (Except IndexError Acknowledgement) := do
  match request.validate with
  | .error fault => return .error (.invalidRequest fault)
  | .ok () =>
    match ← Program.call (.delete indexer.rulesIndex request.ruleId request.refresh) with
    | .ok (some acknowledgement) => return .ok acknowledgement
    | .ok none => return .error (.ruleNotFound request.ruleId)
    | .error (.noIndex _) => return .error (.ruleNotFound request.ruleId)
    | .error cause => return .error (.store cause)

end Indexer

end SigmaCatalog
