import SigmaCatalog.Compilation
import SigmaCatalog.Indexing.Request
import SigmaCatalog.Store.Call

/-!
# Failures of indexing

Why a rule could not be indexed, removed or compiled for a category.
-/

namespace SigmaCatalog

/-- Why an indexing operation failed. -/
inductive IndexError where
  | invalidRequest (fault : RequestFault)
  /-- The index of rules is not ready. -/
  | notReady (cause : ReadinessError)
  | unreadable (category : String) (cause : Rule.ParseError)
  | invalid (problems : List Rule.Problem)
  | uncompilable (category : String) (cause : CompileError)
  /-- The write of the rule took too long. -/
  | timedOut (seconds : Nat)
  | store (cause : StoreError)
  | ruleNotFound (id : String)
  /-- The run ended without an outcome. -/
  | cancelled
  deriving DecidableEq, Repr

namespace IndexError

/-- The failure of indexing a rule that cannot be compiled. -/
def ofCompile (category : String) : CompileError → IndexError
  | .unreadable cause => unreadable category cause
  | .invalid problems => invalid problems
  | cause => uncompilable category cause

def message : IndexError → String
  | invalidRequest fault => "invalid request: " ++ fault.message
  | notReady cause => cause.message
  | unreadable category cause =>
    s!"rule for category '{category}' could not be parsed: {cause.message}"
  | invalid problems => Rule.problemsMessage problems
  | uncompilable category cause =>
    s!"rule for category '{category}' failed to compile: {cause.message}"
  | timedOut seconds => s!"rule write timed out after {Call.secondsText seconds}"
  | store cause => "rule write failed: " ++ cause.message
  | ruleNotFound id => s!"rule '{id}' not found"
  | cancelled => "indexing pipeline ended without a result"

/-- The report on the failure behind a failure. -/
def source? : IndexError → Option String
  | notReady cause => cause.source?
  | uncompilable _ cause => some cause.message
  | store cause => some cause.message
  | invalidRequest _ => none
  | unreadable _ _ => none
  | invalid _ => none
  | timedOut _ => none
  | ruleNotFound _ => none
  | cancelled => none

end IndexError

end SigmaCatalog
