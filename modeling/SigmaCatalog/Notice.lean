import SigmaCatalog.Table

/-!
# Notices

A run reports the stages it enters, the compilations it asks for, and what goes wrong without
deciding the outcome.
-/

namespace SigmaCatalog

/-- The stages of an indexing run, in order. -/
inductive Stage where
  | initializing
  | discovering
  | compiling
  | persisting
  | mappingUpdate
  | done
  deriving DecidableEq, Repr

def Stage.name : Stage → String
  | initializing => "initializing"
  | discovering => "discovering"
  | compiling => "compiling"
  | persisting => "persisting"
  | mappingUpdate => "mapping_update"
  | done => "done"

/-- What went wrong without deciding the outcome, or on the way to a failure. -/
inductive Warning where
  | existsCheckFailed
  | recheckFailed
  | unreadableMapping
  | discoveryFailed
  | mappingsNotRecorded
  | indexingFailed
  /-- The store answered an error in a form that is not JSON. -/
  | errorNotJson
  | requestRejected
  deriving DecidableEq, Repr

/-- The log line of a warning, with its severity. -/
def Warning.line : Warning → String
  | existsCheckFailed => "WARN index exists check failed"
  | recheckFailed => "WARN index recheck failed"
  | unreadableMapping => "WARN replacing unreadable field mapping"
  | discoveryFailed => "WARN field discovery failed, continuing without fields"
  | mappingsNotRecorded => "ERROR failed to update field mappings"
  | indexingFailed => "WARN rule indexing failed"
  | errorNotJson => "WARN OpenSearch returned a non-JSON error body"
  | requestRejected => "WARN OpenSearch rejected request"

/-- Something a run reports. -/
inductive Notice where
  | entered (stage : Stage)
  | warning (warning : Warning)
  /-- A compiler was asked to compile the rule. -/
  | compiling (table : Table String) (strict : Bool)

end SigmaCatalog
