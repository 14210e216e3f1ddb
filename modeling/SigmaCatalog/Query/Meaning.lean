import SigmaCatalog.Query.Conversion

/-!
# What a condition means

The value of a condition follows from the values of its leaves: the tests of single fields and
keywords.  `not`, `and` and `or` mean what they say, `1 of` and `all of` range over the identifiers
that their pattern selects, and the values, items and groups of an identifier are joined as the
identifier says.
-/

namespace SigmaCatalog.Query

/-- The new name that a renaming gives a field; a field without one keeps its name. -/
def Renaming.newName (naming : Renaming) (field : String) : String :=
  (naming.table.get? field).getD field

variable (newName : String → String) (truth : Leaf → Bool)

/-- Whether the values of a list are joined by a joint to something that holds. -/
def Joint.holds (joint : Joint) (values : List Bool) : Bool :=
  match joint with
  | .all => values.all id
  | .any => values.any id

/-- Whether a value of an item holds.  A null, and `false` for the existence of the field, ask for
the field to be missing; every other value asks for its own test. -/
def valueHolds (item : DetectionItem) (value : DetectionValue) : Bool :=
  let field := newName item.field
  match item.has .exists, value with
  | true, .bool false => !truth (.exists field)
  | true, _ => truth (.exists field)
  | false, .null => !truth (.exists field)
  | false, .integer n => truth (.field field (.number (comparisonOf item) (toString n)))
  | false, .real x => truth (.field field (.number (comparisonOf item) x.plainText))
  | false, .bool b => truth (.field field (.truth b))
  | false, .pattern pattern => truth (.field field (patternTerm item pattern))

def itemHolds (item : DetectionItem) : Bool :=
  (valuesJoint item).holds (item.values.map (valueHolds newName truth item))

def bodyHolds : SearchIdentifier → Bool
  | .allOf items => items.all (itemHolds newName truth)
  | .anyOf groups => groups.any fun items => items.all (itemHolds newName truth)
  | .keywords values => values.any fun value => truth (.anywhere (keywordTerm value))

def nameHolds (detection : Detection) (name : String) : Bool :=
  (detection.find? name).any (bodyHolds newName truth)

mutual

def exprHolds (detection : Detection) : Condition.Expr → Bool
  | .identifier name => nameHolds newName truth detection name
  | .not operand => !exprHolds detection operand
  | .and operands => allExprsHold detection operands
  | .or operands => someExprHolds detection operands
  | .oneOf pattern =>
    (pattern.expand detection.names).any (nameHolds newName truth detection)
  | .allOf pattern =>
    (pattern.expand detection.names).all (nameHolds newName truth detection)

def allExprsHold (detection : Detection) : List Condition.Expr → Bool
  | [] => true
  | operand :: operands =>
    exprHolds detection operand && allExprsHold detection operands

def someExprHolds (detection : Detection) : List Condition.Expr → Bool
  | [] => false
  | operand :: operands =>
    exprHolds detection operand || someExprHolds detection operands

end

end SigmaCatalog.Query
