import SigmaCatalog.Rule.Detection
import SigmaCatalog.Rule.Problem
import SigmaCatalog.Text.Blank
import SigmaCatalog.Text.Splitting
import SigmaCatalog.Yaml.Diagnostic

/-!
# Reading search identifiers

Each entry of a mapping is one detection item or one problem; a mapping with problems reports all
of them and yields no items.  A list of mappings is read up to the first mapping with problems.
-/

namespace SigmaCatalog

open Rule (Problem ModifierFault)

namespace DetectionValue

/-- The value a YAML scalar stands for, tags aside; an integer beyond 64 bits with sign counts as a
floating point number. -/
def ofYaml? : Yaml.Value → Option DetectionValue
  | .string text => some (.pattern (.ofText text))
  | .integer n => some (if n < 0x8000000000000000 then .integer n else .real (.ofNat n.toNat))
  | .real x => some (.real x)
  | .bool b => some (.bool b)
  | .null => some .null
  | .tagged _ value => ofYaml? value
  | .sequence _ => none
  | .mapping _ => none

end DetectionValue

namespace DetectionItem

/-- How many modifiers of an item belong to a class. -/
def countOf (item : DetectionItem) (belongs : Modifier → Bool) : Nat :=
  item.modifiers.countP belongs

/-- Whether the modifiers of an item fit one another. -/
def combinationFault? (item : DetectionItem) : Option ModifierFault :=
  let positions := item.countOf Modifier.isPositional
  let comparisons := item.countOf Modifier.isComparison
  let exclusive := item.countOf Modifier.isExclusive
  if 1 < positions then some .severalPositions
  else if 1 < comparisons then some .severalComparisons
  else if 1 < exclusive || (exclusive == 1 && (0 < positions || 0 < comparisons)) then
    some .exclusiveWithOthers
  else if 0 < positions && 0 < comparisons then some .positionWithComparison
  else none

/-- Whether the values of an item are of the kind a modifier needs. -/
def kindFault? (values : List DetectionValue) (modifier : Modifier) : Option ModifierFault :=
  match modifier with
  | .regex | .cidr | .contains | .startsWith | .endsWith =>
    if values.all DetectionValue.isPattern then none else some (.needsTexts modifier)
  | .lt | .lte | .gt | .gte =>
    if values.all DetectionValue.isNumber then none else some (.needsNumbers modifier)
  | .exists =>
    match values with
    | [.bool _] => none
    | _ => some .needsOneBool
  | .all => none

/-- The fault of a text value that should be an address block. -/
def blockFault? : DetectionValue → Option ModifierFault
  | .pattern pattern =>
    if pattern.source.toList.contains '/' then none else some (.notAddressBlock pattern.source)
  | _ => none

/-- The first reason why the modifiers of an item do not fit. -/
def modifierFault? (item : DetectionItem) : Option ModifierFault :=
  item.combinationFault?
    |>.or (item.modifiers.findSome? (kindFault? item.values))
    |>.or (if item.has .cidr then item.values.findSome? blockFault? else none)

/-- Reads modifiers by name; the first unknown name is returned. -/
def modifiersOf : List String → Except String (List Modifier)
  | [] => .ok []
  | name :: names =>
    match Modifier.ofName? name with
    | none => .error name
    | some modifier => (modifiersOf names).map (modifier :: ·)

/-- The values of an item: a scalar stands for a list of one. -/
def valuesOf? : Yaml.Value → Option (List DetectionValue)
  | .sequence items => items.mapM DetectionValue.ofYaml?
  | value => (DetectionValue.ofYaml? value).map ([·])

/-- Reads an item from its key, `field|modifier|…`, and its value. -/
def ofEntry (key : String) (value : Yaml.Value) : Except Problem DetectionItem :=
  let (first, others) := Text.splitAll '|' key.toList
  let field := String.ofList (Text.trimChars first)
  if field.isEmpty then .error (.invalidValue key .emptyFieldName)
  else match modifiersOf (others.map String.ofList) with
    | .error unknown => .error (.unknownModifier field unknown)
    | .ok modifiers =>
      match value, valuesOf? value with
      | .sequence [], _ => .error (.invalidValue field .emptyValueList)
      | _, none => .error (.invalidValue field .nestedValues)
      | _, some values =>
        let item : DetectionItem := { field, modifiers, values }
        match item.modifierFault? with
        | some fault => .error (.invalidModifiers field fault)
        | none => .ok item

end DetectionItem

namespace SearchIdentifier

/-- Reads one entry of a mapping in the body of the identifier `name`. -/
def itemOf (name : String) (entry : Yaml.Value × Yaml.Value) : Except Problem DetectionItem :=
  match entry.1.text? with
  | none => .error (.invalidValue name (.fieldName entry.1.diagnostic))
  | some key => DetectionItem.ofEntry key entry.2

/-- Reads the entries of a mapping one by one: the items, or the problems if there are any. -/
def itemsOf (name : String) (entries : List (Yaml.Value × Yaml.Value)) :
    Except (List Problem) (List DetectionItem) :=
  entries.foldr (fun entry later =>
    match itemOf name entry, later with
    | .ok item, .ok items => .ok (item :: items)
    | .ok _, .error problems => .error problems
    | .error problem, .ok _ => .error [problem]
    | .error problem, .error problems => .error (problem :: problems)) (.ok [])

/-- Reads a mapping that must have an item. -/
def groupOf (name : String) (entries : List (Yaml.Value × Yaml.Value)) :
    Except (List Problem) (List DetectionItem) :=
  match itemsOf name entries with
  | .ok [] => .error [.emptyIdentifier name]
  | result => result

/-- Reads the mappings of a list up to the first one with problems; an entry under a tag is passed
over. -/
def groupsOf (name : String) :
    List Yaml.Value → Except (List Problem) (List (List DetectionItem))
  | [] => .ok []
  | .mapping entries :: others =>
    match groupOf name entries with
    | .error problems => .error problems
    | .ok group => (groupsOf name others).map (group :: ·)
  | _ :: others => groupsOf name others

/-- Reads the body of the identifier `name`. -/
def ofYaml (name : String) : Yaml.Value → Except (List Problem) SearchIdentifier
  | .mapping entries => (groupOf name entries).map allOf
  | .sequence [] => .error [.emptyIdentifier name]
  | .sequence items =>
    if items.all Yaml.Value.isMapping then (groupsOf name items).map anyOf
    else match items.mapM DetectionValue.ofYaml? with
      | some values => .ok (keywords values)
      | none => .error [.invalidValue name .nestedKeywords]
  | .null => .error [.emptyIdentifier name]
  | body =>
    match DetectionValue.ofYaml? body with
    | some value => .ok (keywords [value])
    | none => .error [.invalidValue name .unsupportedBody]

end SearchIdentifier

end SigmaCatalog
