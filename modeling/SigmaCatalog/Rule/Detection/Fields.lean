import SigmaCatalog.Rule.Detection

/-!
# The fields of a detection block

The fields that the conditions of a detection block consult, and the block with its fields under
other names.
-/

namespace SigmaCatalog

namespace DetectionItem

def rename (newName : String → String) (item : DetectionItem) : DetectionItem :=
  { item with field := newName item.field }

end DetectionItem

namespace SearchIdentifier

def rename (newName : String → String) : SearchIdentifier → SearchIdentifier
  | allOf items => allOf (items.map (DetectionItem.rename newName))
  | anyOf groups => anyOf (groups.map fun items => items.map (DetectionItem.rename newName))
  | keywords values => keywords values

end SearchIdentifier

namespace Detection

def rename (newName : String → String) (detection : Detection) : Detection :=
  { detection with
    identifiers := detection.identifiers.map fun (name, body) => (name, body.rename newName) }

/-- The names of the search identifiers that a reference stands for. -/
def referredNames (detection : Detection) : Condition.Reference → List String
  | .identifier name => [name]
  | .selection pattern => pattern.expand detection.names

def fieldsOf (detection : Detection) (name : String) : List String :=
  match detection.find? name with
  | some body => body.fields
  | none => []

/-- The fields that the conditions consult, as often as they are met: by condition, by reference
from left to right, by identifier in the order of declaration, by item. -/
def consultedFields (detection : Detection) : List String :=
  detection.conditions.flatMap fun condition =>
    condition.expr.references.flatMap fun reference =>
      (detection.referredNames reference).flatMap detection.fieldsOf

end Detection

/-- The texts of a list without those that occur before in it. -/
def firstOccurrences (texts : List String) : List String :=
  texts.foldl (fun seen text => if seen.contains text then seen else seen ++ [text]) []

end SigmaCatalog
