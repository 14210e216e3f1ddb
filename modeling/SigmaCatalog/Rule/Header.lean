import SigmaCatalog.Rule.Basic
import SigmaCatalog.Yaml.Value

/-!
# The header of a rule document

The first pass over a rule document reads its known fields by type and leaves the detection block
as it is.  A field of the wrong type makes the whole document unreadable; unknown fields do not
matter, but every key must be a text and a known one may occur only once.
-/

namespace SigmaCatalog.Rule

abbrev Entries : Type := List (Yaml.Value × Yaml.Value)

/-- The fields of a rule document before their contents are checked. -/
structure Header where
  title : Option String
  id : Option String
  status : Option String
  description : Option String
  author : Option String
  date : Option String
  modified : Option String
  references : List String
  tags : List String
  falsePositives : List String
  level : Option String
  logSource : LogSource
  detection : Option Entries

namespace Header

/-- The value of a field; there may be only one. -/
def field? (entries : Entries) (name : String) : Except ParseError (Option Yaml.Value) :=
  match entries.filter fun entry => entry.1.text? == some name with
  | [] => .ok none
  | [entry] => .ok (some entry.2)
  | _ => .error .invalidYaml

/-- A text field, which may be null. -/
def textField (entries : Entries) (name : String) : Except ParseError (Option String) := do
  match ← field? entries name with
  | none | some .null => return none
  | some value =>
    match value.text? with
    | some text => return some text
    | none => throw .invalidYaml

/-- The text that a value without a tag holds. -/
def bareText? : Yaml.Value → Option String
  | .string text => some text
  | _ => none

/-- A field that holds a text or a list of texts, or is null. -/
def textsField (entries : Entries) (name : String) : Except ParseError (List String) := do
  match ← field? entries name with
  | none | some .null => return []
  | some (.string text) => return [text]
  | some (.sequence items) =>
    match items.mapM bareText? with
    | some texts => return texts
    | none => throw .invalidYaml
  | some _ => throw .invalidYaml

def hasTextKeys (entries : Entries) : Bool :=
  entries.all fun entry => entry.1.text?.isSome

/-- The log source of a document; null stands for an empty one. -/
def logSourceOf (entries : Entries) : Except ParseError LogSource := do
  match (← field? entries "logsource").map Yaml.Value.untagged with
  | none | some .null => return {}
  | some (.mapping parts) =>
    if !hasTextKeys parts then throw .invalidYaml
    return {
      product := ← textField parts "product"
      category := ← textField parts "category"
      service := ← textField parts "service"
      definition := ← textField parts "definition" }
  | some _ => throw .invalidYaml

/-- The entries of the detection block; null under a tag stands for an empty block. -/
def detectionOf (entries : Entries) : Except ParseError (Option Entries) := do
  match ← field? entries "detection" with
  | none | some .null => return none
  | some value =>
    match value.untagged with
    | .mapping entries => return some entries
    | .null => return some []
    | _ => throw .invalidYaml

def ofEntries (entries : Entries) : Except ParseError Header := do
  if !hasTextKeys entries then throw .invalidYaml
  return {
    title := ← textField entries "title"
    id := ← textField entries "id"
    status := ← textField entries "status"
    description := ← textField entries "description"
    author := ← textField entries "author"
    date := ← textField entries "date"
    modified := ← textField entries "modified"
    references := ← textsField entries "references"
    tags := ← textsField entries "tags"
    falsePositives := ← textsField entries "falsepositives"
    level := ← textField entries "level"
    logSource := ← logSourceOf entries
    detection := ← detectionOf entries }

end Header

end SigmaCatalog.Rule
