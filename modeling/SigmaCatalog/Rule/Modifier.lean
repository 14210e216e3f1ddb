/-!
# Value modifiers

A field name of a detection item may be followed by modifiers, each after a `|`.  They fall into
classes: the three positional modifiers say where in the field's text a value must stand, the four
comparisons order numbers, `re`, `cidr` and `exists` change how a value is read, and `all` asks for
every value of a list instead of any.
-/

namespace SigmaCatalog

inductive Modifier where
  | contains
  | startsWith
  | endsWith
  | all
  | regex
  | cidr
  | lt
  | lte
  | gt
  | gte
  | exists
  deriving DecidableEq, Repr

namespace Modifier

def every : List Modifier :=
  [contains, startsWith, endsWith, all, regex, cidr, lt, lte, gt, gte, .exists]

def name : Modifier → String
  | contains => "contains"
  | startsWith => "startswith"
  | endsWith => "endswith"
  | all => "all"
  | regex => "re"
  | cidr => "cidr"
  | lt => "lt"
  | lte => "lte"
  | gt => "gt"
  | gte => "gte"
  | .exists => "exists"

/-- The modifier spelled `text`; the spelling is exact. -/
def ofName? (text : String) : Option Modifier :=
  every.find? fun modifier => modifier.name == text

/-- Whether the modifier says where in the text a value stands. -/
def isPositional : Modifier → Bool
  | contains | startsWith | endsWith => true
  | _ => false

/-- Whether the modifier compares numbers. -/
def isComparison : Modifier → Bool
  | lt | lte | gt | gte => true
  | _ => false

/-- Whether the modifier replaces the usual reading of a value and stands alone. -/
def isExclusive : Modifier → Bool
  | regex | cidr | .exists => true
  | _ => false

end Modifier

end SigmaCatalog
