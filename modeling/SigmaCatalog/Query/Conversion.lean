import SigmaCatalog.Query.Clause
import SigmaCatalog.Table

/-!
# Conversion of conditions

Each condition of a detection block becomes one clause.  On the way the fields of the items are
renamed by a table, and every field met is noted once, in the order in which it is met.  A strict
conversion fails at the first field that the table does not have; otherwise such a field keeps its
name.
-/

namespace SigmaCatalog.Query

/-- Why a condition cannot be converted. -/
inductive ConversionError where
  /-- The table has no entry for the field. -/
  | unmappedField (field : String)
  /-- The condition has an aggregation clause. -/
  | aggregation (condition : String)
  | unknownIdentifier (name : String)
  | emptySelection (pattern : NamePattern)
  deriving DecidableEq, Repr

/-- How the fields of a rule are renamed. -/
structure Renaming where
  table : Table String
  /-- Whether every field must be in the table. -/
  strict : Bool

/-- Steps of a conversion: they note fields and may fail. -/
abbrev Converting (α : Type) : Type :=
  StateT (List String) (Except ConversionError) α

/-- The fields with one more, unless it is among them. -/
def noteField (field : String) (fields : List String) : List String :=
  if fields.contains field then fields else fields ++ [field]

/-- Notes a field and gives its new name. -/
def rename (naming : Renaming) (field : String) : Converting String := do
  modify (noteField field)
  match naming.table.get? field with
  | some name => return name
  | none => if naming.strict then throw (.unmappedField field) else return field

/-- How an item compares its field with a number. -/
def comparisonOf (item : DetectionItem) : Comparison :=
  if item.has .lt then .less
  else if item.has .lte then .lessOrEqual
  else if item.has .gt then .greater
  else if item.has .gte then .greaterOrEqual
  else .equal

/-- The pieces of a text value after the modifiers that leave one of its ends open. -/
def openEnds (item : DetectionItem) (pieces : List Piece) : List Piece :=
  let front := if item.has .contains || item.has .endsWith then [Piece.anyText] else []
  let back := if item.has .contains || item.has .startsWith then [Piece.anyText] else []
  front ++ pieces ++ back

def patternTerm (item : DetectionItem) (pattern : Pattern) : Term :=
  if item.has .regex then .regex pattern.source
  else if item.has .cidr then .phrase pattern.source
  else .pieces (openEnds item pattern.pieces)

/-- The clause of one value of an item whose field is renamed to `field`. -/
def valueClause (field : String) (item : DetectionItem) (value : DetectionValue) : Clause Leaf :=
  if item.has .exists then
    if value = .bool false then .not (.leaf (.exists field)) else .leaf (.exists field)
  else match value with
    | .null => .not (.leaf (.exists field))
    | .integer n => .leaf (.field field (.number (comparisonOf item) (toString n)))
    | .real x => .leaf (.field field (.number (comparisonOf item) x.plainText))
    | .bool b => .leaf (.field field (.truth b))
    | .pattern pattern => .leaf (.field field (patternTerm item pattern))

def valuesJoint (item : DetectionItem) : Joint :=
  if item.has .all then .all else .any

/-- The clause of an item whose field is renamed to `field`. -/
def itemClause (field : String) (item : DetectionItem) : Clause Leaf :=
  .join (valuesJoint item) (item.values.map (valueClause field item))

def keywordTerm : DetectionValue → Term
  | .pattern pattern => .pieces pattern.pieces
  | .integer n => .phrase (toString n)
  | .real x => .phrase x.plainText
  | .bool b => .phrase (truthText b)
  | .null => .phrase "null"

def convertItem (naming : Renaming) (item : DetectionItem) : Converting (Clause Leaf) :=
  return itemClause (← rename naming item.field) item

/-- Converts items that must all hold. -/
def convertItems (naming : Renaming) (items : List DetectionItem) : Converting (Clause Leaf) :=
  return .join .all (← items.mapM (convertItem naming))

def convertBody (naming : Renaming) : SearchIdentifier → Converting (Clause Leaf)
  | .allOf items => convertItems naming items
  | .anyOf groups => return .join .any (← groups.mapM (convertItems naming))
  | .keywords values =>
    return .join .any (values.map fun value => .leaf (.anywhere (keywordTerm value)))

def convertName (detection : Detection) (naming : Renaming) (name : String) :
    Converting (Clause Leaf) :=
  match detection.find? name with
  | some body => convertBody naming body
  | none => throw (.unknownIdentifier name)

/-- Converts a quantifier over the identifiers that a pattern selects. -/
def convertSelection (detection : Detection) (naming : Renaming) (joint : Joint)
    (pattern : NamePattern) : Converting (Clause Leaf) :=
  match pattern.expand detection.names with
  | [] => throw (.emptySelection pattern)
  | names => return .join joint (← names.mapM (convertName detection naming))

mutual

def convertExpr (detection : Detection) (naming : Renaming) :
    Condition.Expr → Converting (Clause Leaf)
  | .identifier name => convertName detection naming name
  | .not operand => return .not (← convertExpr detection naming operand)
  | .and operands => return .join .all (← convertExprs detection naming operands)
  | .or operands => return .join .any (← convertExprs detection naming operands)
  | .oneOf pattern => convertSelection detection naming .any pattern
  | .allOf pattern => convertSelection detection naming .all pattern

def convertExprs (detection : Detection) (naming : Renaming) :
    List Condition.Expr → Converting (List (Clause Leaf))
  | [] => return []
  | operand :: operands => do
    let clause ← convertExpr detection naming operand
    return clause :: (← convertExprs detection naming operands)

end

/-- Converts a condition, which may not have an aggregation clause. -/
def convertCondition (detection : Detection) (naming : Renaming) (condition : Condition) :
    Converting (Clause Leaf) := do
  if condition.aggregation.isSome then throw (.aggregation condition.source)
  convertExpr detection naming condition.expr

/-- The clauses of the conditions of a detection block and the fields noted. -/
structure Conversion where
  clauses : List (Clause Leaf)
  fields : List String
  deriving Repr

namespace Conversion

/-- Converts the conditions of a detection block in order. -/
def ofDetection (detection : Detection) (naming : Renaming) :
    Except ConversionError Conversion :=
  ((detection.conditions.mapM (convertCondition detection naming)).run []).map
    fun (clauses, fields) => { clauses, fields }

def queries (conversion : Conversion) : List String :=
  conversion.clauses.map fun clause => clause.text Leaf.text

end Conversion

end SigmaCatalog.Query
