import SigmaCatalog.Rule.Header
import SigmaCatalog.Rule.Item
import SigmaCatalog.Text.Blank
import SigmaCatalog.Yaml.Document

/-!
# Reading a rule

`Rule.parse` reads the text of a rule.  It fails only when the text is no rule document; every other
problem is kept in the rule, in the order title, id, level, search identifiers, conditions.
-/

namespace SigmaCatalog

namespace Detection

open Rule (Problem Entries)

def conditionKey : String := "condition"

/-- The names a detection block declares, whether or not their bodies can be read. -/
def declaredNames (entries : Entries) : List String :=
  (entries.filterMap fun entry => entry.1.text?).filter (· != conditionKey)

def conditionValue? (entries : Entries) : Option Yaml.Value :=
  (entries.reverse.find? fun entry => entry.1.text? == some conditionKey).map Prod.snd

/-- What one entry of a detection block declares, or the problems in it. -/
def identifierOf (entry : Yaml.Value × Yaml.Value) :
    Except (List Problem) (Option (String × SearchIdentifier)) :=
  match entry.1.text? with
  | none => .error [.invalidValue "detection" (.identifierName entry.1.diagnostic)]
  | some name =>
    if name = conditionKey then .ok none
    else (SearchIdentifier.ofYaml name entry.2).map fun body => some (name, body)

def entryProblems (entry : Yaml.Value × Yaml.Value) : List Problem :=
  match identifierOf entry with
  | .ok _ => []
  | .error problems => problems

/-- The search identifiers of the entries that can be read. -/
def identifiersOf (entries : Entries) : List (String × SearchIdentifier) :=
  entries.foldl (fun identifiers entry =>
    match identifierOf entry with
    | .ok (some (name, body)) => declare name body identifiers
    | _ => identifiers) []

/-- The texts of the conditions, or the problem with them. -/
def conditionSources : Option Yaml.Value → Except Problem (List String)
  | none | some .null => .error (.missingField "detection.condition")
  | some (.string text) => .ok [text]
  | some (.sequence []) => .error (.missingField "detection.condition")
  | some (.sequence items) =>
    match items.mapM Yaml.Value.text? with
    | some texts => .ok texts
    | none => .error (.condition (Yaml.Value.listDiagnostic items) .entriesNotTexts)
  | some value => .error (.condition value.diagnostic .notTextOrList)

/-- The problem with a reference that names nothing declared. -/
def referenceProblem? (declared : List String) : Condition.Reference → Option Problem
  | .identifier name =>
    if declared.contains name then none else some (.undefinedIdentifier name)
  | .selection pattern =>
    if (pattern.expand declared).isEmpty then some (.undefinedIdentifier pattern.text) else none

/-- A condition and the problems with its text. -/
def conditionOf (declared : List String) (source : String) : Option Condition × List Problem :=
  match Condition.parse source with
  | .ok condition =>
    (some condition, condition.expr.references.filterMap (referenceProblem? declared))
  | .error cause => (none, [.condition source (.malformed cause)])

/-- The conditions of a detection block and the problems with them. -/
def conditionsOf (declared : List String) (value : Option Yaml.Value) :
    List Condition × List Problem :=
  match conditionSources value with
  | .error problem => ([], [problem])
  | .ok sources =>
    let read := sources.map (conditionOf declared)
    (read.filterMap Prod.fst, read.flatMap Prod.snd)

/-- Reads a detection block with the problems found in it. -/
def ofEntries (entries : Entries) : Detection × List Problem :=
  let (conditions, problems) := conditionsOf (declaredNames entries) (conditionValue? entries)
  ({ identifiers := identifiersOf entries, conditions }, entries.flatMap entryProblems ++ problems)

end Detection

namespace Rule

/-- The name space of the identifiers of rules that carry none. -/
def idSpace : Uuid :=
  ⟨[0x6f, 0x1c, 0x2d, 0x7a, 0x94, 0xe3, 0x4b, 0x85, 0xa0, 0xd2, 0x3c, 0x5e, 0x8b, 0x71, 0xf4, 0x09]⟩

/-- The title of a rule, without the blanks around it. -/
def titleOf (title : Option String) : String × List Problem :=
  match title.map Text.trim with
  | none | some "" => ("", [.missingField "title"])
  | some title => (title, [])

/-- The identifier of a rule; one without an identifier gets one from its whole text. -/
def idOf (text : String) (id : Option String) : Uuid × List Problem :=
  match id.map Text.trim with
  | none | some "" => (Uuid.ofName idSpace text, [])
  | some id =>
    match Uuid.ofText? id with
    | some uuid => (uuid, [])
    | none => (.nil, [.invalidId id])

def levelOf : Option String → Option Level × List Problem
  | none => (none, [])
  | some text =>
    match Level.ofText? text with
    | some level => (some level, [])
    | none => (none, [.invalidLevel text])

/-- The rule of a text with the given header. -/
def ofHeader (text : String) (header : Header) : Rule :=
  let (title, titleProblems) := titleOf header.title
  let (id, idProblems) := idOf text header.id
  let (level, levelProblems) := levelOf header.level
  let (detection, detectionProblems) :=
    match header.detection with
    | some entries => Detection.ofEntries entries
    | none => ({}, [.missingField "detection"])
  { id, title, level, detection
    status := header.status
    description := header.description
    author := header.author
    date := header.date
    modified := header.modified
    references := header.references
    tags := header.tags
    falsePositives := header.falsePositives
    logSource := header.logSource
    problems := titleProblems ++ idProblems ++ levelProblems ++ detectionProblems }

def parse (text : String) : Except ParseError Rule :=
  if Text.isBlankText text then .error .empty
  else match Yaml.Value.ofText text with
    | .error _ => .error .invalidYaml
    | .ok .null => .error .empty
    | .ok (.mapping entries) => (Header.ofEntries entries).map (ofHeader text)
    | .ok _ => .error .notMapping

end Rule

end SigmaCatalog
