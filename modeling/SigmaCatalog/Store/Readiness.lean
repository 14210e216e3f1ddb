import SigmaCatalog.Program

/-!
# Making an index ready

An index is created when it does not exist.  When the creation fails, the index is looked for once
more: another caller may have created it in between.
-/

namespace SigmaCatalog

/-- Looks for an index that could not be created; it is ready if it exists by now. -/
def recheckReady (index : String) (failure : ReadinessError) :
    Program (Except ReadinessError Unit) := do
  match ← Program.call (.indexExists index) with
  | .ok true => return .ok ()
  | .ok false => return .error failure
  | .error _ =>
    Program.warn .recheckFailed
    return .error failure

/-- Creates an index, or looks for it when that fails. -/
def createReady (index : String) (schema : Json) : Program (Except ReadinessError Unit) := do
  match ← Program.call (.createIndex index schema) with
  | .ok true => return .ok ()
  | .ok false => recheckReady index (.notAcknowledged index)
  | .error cause => recheckReady index (.create index cause)

/-- Makes sure that an index exists; one that does not is created with the schema given. -/
def makeReady (index : String) (schema : Json) : Program (Except ReadinessError Unit) := do
  match ← Program.call (.indexExists index) with
  | .ok true => return .ok ()
  | .ok false => createReady index schema
  | .error _ =>
    Program.warn .existsCheckFailed
    createReady index schema

end SigmaCatalog
