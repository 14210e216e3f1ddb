import SigmaCatalog.Decimal.Binary64
import SigmaCatalog.Rule.Condition
import SigmaCatalog.Rule.Modifier
import SigmaCatalog.Rule.Pattern

/-!
# The detection block of a rule

A detection block declares search identifiers and combines them in conditions.  An identifier is a
list of items that must all hold, a list of such lists of which one must hold, or a list of
keywords to be found anywhere in an event.
-/

namespace SigmaCatalog

/-- A value that a field or an event is compared with. -/
inductive DetectionValue where
  | pattern (pattern : Pattern)
  /-- An integer of 64 bits with sign. -/
  | integer (value : Int)
  | real (value : Binary64)
  | bool (value : Bool)
  | null
  deriving DecidableEq, Repr

namespace DetectionValue

def isPattern : DetectionValue → Bool
  | pattern _ => true
  | _ => false

def isNumber : DetectionValue → Bool
  | integer _ => true
  | real _ => true
  | _ => false

end DetectionValue

/-- A test of one field: its modifiers and the values it is compared with. -/
structure DetectionItem where
  field : String
  modifiers : List Modifier
  values : List DetectionValue
  deriving DecidableEq, Repr

namespace DetectionItem

def has (item : DetectionItem) (modifier : Modifier) : Bool :=
  item.modifiers.contains modifier

end DetectionItem

/-- The body of a search identifier. -/
inductive SearchIdentifier where
  /-- Every item must hold. -/
  | allOf (items : List DetectionItem)
  /-- In one of the groups every item must hold. -/
  | anyOf (groups : List (List DetectionItem))
  /-- One of the values must occur in the event. -/
  | keywords (values : List DetectionValue)
  deriving DecidableEq, Repr

namespace SearchIdentifier

/-- The fields an identifier tests, in the order of declaration. -/
def fields : SearchIdentifier → List String
  | allOf items => items.map DetectionItem.field
  | anyOf groups => groups.flatMap fun items => items.map DetectionItem.field
  | keywords _ => []

end SearchIdentifier

/-- The search identifiers of a rule in the order of declaration, and its conditions. -/
structure Detection where
  identifiers : List (String × SearchIdentifier) := []
  conditions : List Condition := []
  deriving Repr

namespace Detection

def names (detection : Detection) : List String :=
  detection.identifiers.map Prod.fst

def find? (detection : Detection) (name : String) : Option SearchIdentifier :=
  (detection.identifiers.find? fun entry => entry.1 == name).map Prod.snd

/-- Declares a search identifier; one of the same name is replaced where it stands. -/
def declare (name : String) (identifier : SearchIdentifier) :
    List (String × SearchIdentifier) → List (String × SearchIdentifier)
  | [] => [(name, identifier)]
  | entry :: entries =>
    if entry.1 = name then (name, identifier) :: entries
    else entry :: declare name identifier entries

end Detection

end SigmaCatalog
