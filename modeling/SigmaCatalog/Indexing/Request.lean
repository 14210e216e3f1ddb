import SigmaCatalog.Store.Refresh
import SigmaCatalog.Text.Blank
import SigmaCatalog.Text.Case

/-!
# Requests

A rule is indexed under a category and removed by its identifier.  A request may ask for the change
to be forced, which makes no difference to what happens.
-/

namespace SigmaCatalog

/-- Why a request is refused. -/
inductive RequestFault where
  | missingCategory
  | missingRuleId
  deriving DecidableEq, Repr

def RequestFault.message : RequestFault → String
  | missingCategory => "rule category is missing"
  | missingRuleId => "ruleId is missing"

structure IndexRequest where
  text : String
  /-- The log type, without blanks around it and in lower case. -/
  category : String
  force : Bool
  refresh : RefreshPolicy
  deriving Repr

namespace IndexRequest

/-- The request for a category as it was written. -/
def make (text category : String) (force : Bool) (refresh : RefreshPolicy) : IndexRequest :=
  { text, category := Text.lowerAscii (Text.trim category), force, refresh }

/-- A request must have a category. -/
def validate (request : IndexRequest) : Except RequestFault Unit :=
  if request.category.isEmpty then .error .missingCategory else .ok ()

end IndexRequest

structure RemovalRequest where
  ruleId : String
  force : Bool
  refresh : RefreshPolicy
  deriving Repr

namespace RemovalRequest

/-- A request must have an identifier that is not blank. -/
def validate (request : RemovalRequest) : Except RequestFault Unit :=
  if Text.isBlankText request.ruleId then .error .missingRuleId else .ok ()

end RemovalRequest

end SigmaCatalog
