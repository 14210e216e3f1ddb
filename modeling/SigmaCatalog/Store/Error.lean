/-!
# Failures of a store

A store call fails for one of the causes below.  Making an index ready and recording field mappings
fail for reasons of their own or pass on the failure of a store call.
-/

namespace SigmaCatalog

/-- Why a store call failed. -/
inductive StoreError where
  /-- No answer came to the request. -/
  | unreachable (detail : String)
  | unencodable (detail : String)
  | indexExists (index : String)
  | noIndex (index : String)
  /-- The condition of a write did not hold. -/
  | conflict (index id : String)
  | rejected (status : Nat) (reason : String)
  /-- The store answered in a form that has no meaning. -/
  | unexpected (detail : String)
  | other (text : String)
  deriving DecidableEq, Repr

def StoreError.message : StoreError → String
  | unreachable detail => "HTTP request failed: " ++ detail
  | unencodable detail => "serialization error: " ++ detail
  | indexExists index => "index already exists: " ++ index
  | noIndex index => "index not found: " ++ index
  | conflict index id => s!"version conflict on {index}/{id}"
  | rejected status reason => s!"store rejected request ({status}): {reason}"
  | unexpected detail => "unexpected response: " ++ detail
  | other text => text

/-- Why an index is not ready. -/
inductive ReadinessError where
  /-- The index does not exist and cannot be created. -/
  | create (index : String) (cause : StoreError)
  /-- The store did not confirm the creation, and the index does not exist. -/
  | notAcknowledged (index : String)
  deriving DecidableEq, Repr

def ReadinessError.message : ReadinessError → String
  | create index cause => s!"failed to create index '{index}': {cause.message}"
  | notAcknowledged index => s!"creation of index '{index}' was not acknowledged"

/-- The report on the cause of an index not being ready. -/
def ReadinessError.source? : ReadinessError → Option String
  | create _ cause => some cause.message
  | notAcknowledged _ => none

/-- Why field mappings could not be recorded. -/
inductive MappingError where
  | notReady (cause : ReadinessError)
  | store (cause : StoreError)
  /-- Other writers were faster in every attempt. -/
  | contended (rawField : String) (attempts : Nat)
  deriving DecidableEq, Repr

def MappingError.message : MappingError → String
  | notReady cause => cause.message
  | store cause => "field mapping store error: " ++ cause.message
  | contended rawField attempts =>
    s!"field mapping '{rawField}' still contended after {attempts} attempts"

end SigmaCatalog
