import SigmaCatalog.Rule.Condition.Parser
import SigmaCatalog.Rule.Modifier
import SigmaCatalog.Text.Splitting

/-!
# Problems of a rule

A rule document that can be read at all is checked as a whole: every problem found in it is kept, in
the order in which the document shows it.  Each problem names its cause; `Problem.message` words it.
-/

namespace SigmaCatalog.Rule

/-- Why the modifiers of an item do not fit one another or its values. -/
inductive ModifierFault where
  | severalPositions
  | severalComparisons
  | exclusiveWithOthers
  | positionWithComparison
  | needsTexts (modifier : Modifier)
  | needsNumbers (modifier : Modifier)
  | needsOneBool
  /-- An address block without a slash. -/
  | notAddressBlock (text : String)
  deriving DecidableEq, Repr

def ModifierFault.message : ModifierFault → String
  | severalPositions => "only one of contains, startswith, endswith may be used"
  | severalComparisons => "only one comparison modifier may be used"
  | exclusiveWithOthers =>
    "re, cidr and exists cannot be combined with other value modifiers"
  | positionWithComparison => "string and numeric modifiers cannot be combined"
  | needsTexts modifier => s!"'{modifier.name}' requires string values"
  | needsNumbers modifier => s!"'{modifier.name}' requires numeric values"
  | needsOneBool => "'exists' requires a single boolean"
  | notAddressBlock text => s!"'{text}' is not a CIDR block"

/-- Why a part of the detection block has the wrong kind of value. -/
inductive ValueFault where
  /-- The name of a search identifier is no text; its diagnostic form is kept. -/
  | identifierName (diagnostic : String)
  /-- The name of a field is no text; its diagnostic form is kept. -/
  | fieldName (diagnostic : String)
  | emptyFieldName
  | emptyValueList
  | nestedValues
  | nestedKeywords
  | unsupportedBody
  deriving DecidableEq, Repr

def ValueFault.message : ValueFault → String
  | identifierName diagnostic => "identifier names must be strings, got " ++ diagnostic
  | fieldName diagnostic => "field names must be strings, got " ++ diagnostic
  | emptyFieldName => "field name is empty"
  | emptyValueList => "empty value list"
  | nestedValues => "values must be scalars or a list of scalars"
  | nestedKeywords => "keyword lists may only contain scalar values"
  | unsupportedBody => "unsupported search identifier body"

/-- Why a condition cannot be read. -/
inductive ConditionFault where
  | malformed (cause : Condition.Malformed)
  | entriesNotTexts
  | notTextOrList
  deriving DecidableEq, Repr

def ConditionFault.message : ConditionFault → String
  | malformed cause => cause.message
  | entriesNotTexts => "condition list entries must be strings"
  | notTextOrList => "condition must be a string or a list of strings"

/-- A problem found in a rule. -/
inductive Problem where
  | missingField (name : String)
  | invalidId (text : String)
  | invalidLevel (text : String)
  | unknownModifier (field modifier : String)
  | invalidModifiers (field : String) (fault : ModifierFault)
  | invalidValue (field : String) (fault : ValueFault)
  | emptyIdentifier (name : String)
  | undefinedIdentifier (name : String)
  /-- A condition that cannot be read, as written or in its diagnostic form. -/
  | condition (text : String) (fault : ConditionFault)
  deriving DecidableEq, Repr

def Problem.message : Problem → String
  | missingField name => s!"missing required field '{name}'"
  | invalidId text => s!"invalid rule id '{text}': expected a UUID"
  | invalidLevel text =>
    s!"invalid level '{text}': expected one of informational, low, medium, high, critical"
  | unknownModifier field modifier => s!"unknown modifier '{modifier}' on '{field}'"
  | invalidModifiers field fault => s!"invalid modifiers on '{field}': {fault.message}"
  | invalidValue field fault => s!"invalid value for '{field}': {fault.message}"
  | emptyIdentifier name => s!"search identifier '{name}' is empty"
  | undefinedIdentifier name => s!"condition references undefined search identifier '{name}'"
  | condition text fault => s!"malformed condition '{text}': {fault.message}"

/-- The report on all problems of a rule. -/
def problemsMessage (problems : List Problem) : String :=
  Text.joinWith "; " (problems.map Problem.message)

/-- Why a text cannot be read as a rule document at all. -/
inductive ParseError where
  | empty
  | invalidYaml
  | notMapping
  deriving DecidableEq, Repr

def ParseError.message : ParseError → String
  | empty => "empty rule"
  | invalidYaml => "invalid YAML"
  | notMapping => "rule must be a YAML mapping"

end SigmaCatalog.Rule
