import SigmaCatalog.Rule.Detection
import SigmaCatalog.Rule.Level
import SigmaCatalog.Rule.Problem
import SigmaCatalog.Uuid

/-!
# Rules

A rule is its metadata, the log source it applies to, its detection block, and every problem found
while reading it.  Only a rule without problems may be compiled.
-/

namespace SigmaCatalog

/-- The logs a rule applies to. -/
structure LogSource where
  product : Option String := none
  category : Option String := none
  service : Option String := none
  definition : Option String := none
  deriving DecidableEq, Repr

namespace LogSource

/-- The parts of a log source by name. -/
def parts (source : LogSource) : List (String × Option String) :=
  [("product", source.product), ("category", source.category), ("service", source.service),
    ("definition", source.definition)]

end LogSource

/-- A rule with the problems found in it. -/
structure Rule where
  id : Uuid
  title : String
  status : Option String
  description : Option String
  author : Option String
  date : Option String
  modified : Option String
  references : List String
  tags : List String
  falsePositives : List String
  level : Option Level
  logSource : LogSource
  detection : Detection
  problems : List Rule.Problem
  deriving Repr

namespace Rule

def isValid (rule : Rule) : Bool :=
  rule.problems.isEmpty

end Rule

end SigmaCatalog
