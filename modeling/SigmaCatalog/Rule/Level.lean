import SigmaCatalog.Text.Blank
import SigmaCatalog.Text.Case

/-!
# Rule severity

The five levels a rule may declare, their names, and the reading of a level from rule text, in
which blanks around the name and the case of its ASCII letters do not matter.
-/

namespace SigmaCatalog

/-- The severity of a rule. -/
inductive Level where
  | informational
  | low
  | medium
  | high
  | critical
  deriving DecidableEq, Repr

namespace Level

/-- Every level, from the least to the most severe. -/
def all : List Level :=
  [informational, low, medium, high, critical]

/-- The name a level is written and stored under. -/
def name : Level → String
  | informational => "informational"
  | low => "low"
  | medium => "medium"
  | high => "high"
  | critical => "critical"

def ofText? (text : String) : Option Level :=
  let key := Text.lowerAscii (Text.trim text)
  all.find? fun level => level.name == key

end Level

end SigmaCatalog
