import SigmaCatalog.Decimal.Notation
import SigmaCatalog.Text.Quoted
import SigmaCatalog.Text.Splitting
import SigmaCatalog.Yaml.Value

/-!
# YAML values in diagnostics

Problem reports show a value where a text was expected.  Each kind of value is named, except that
texts, numbers and truth values as keys of a mapping are shown bare.
-/

namespace SigmaCatalog.Yaml.Value

/-- A floating point number as YAML spells it. -/
def realText : Binary64 → String
  | .nan => ".nan"
  | .infinite negative => Binary64.signText negative ++ ".inf"
  | .finite negative significand exponent => Binary64.markedText negative significand exponent

/-- A key that is shown without the name of its kind. -/
def bareKey? : Value → Option String
  | bool b => some (if b then "true" else "false")
  | integer n => some (toString n)
  | real x => some (realText x)
  | string text => some (Text.quoted text)
  | _ => none

mutual

/-- A value as diagnostics show it. -/
def diagnostic : Value → String
  | null => "Null"
  | bool b => "Bool(" ++ (if b then "true" else "false") ++ ")"
  | integer n => "Number(" ++ toString n ++ ")"
  | real x => "Number(" ++ realText x ++ ")"
  | string text => "String(" ++ Text.quoted text ++ ")"
  | sequence items => "Sequence [" ++ Text.joinWith ", " (itemDiagnostics items) ++ "]"
  | mapping entries =>
    "Mapping \x7b" ++ Text.joinWith ", " (entryDiagnostics entries) ++ "\x7d"
  | tagged tag value =>
    "TaggedValue \x7b tag: !" ++ tag ++ ", value: " ++ value.diagnostic ++ " \x7d"

def itemDiagnostics : List Value → List String
  | [] => []
  | item :: items => item.diagnostic :: itemDiagnostics items

def entryDiagnostics : List (Value × Value) → List String
  | [] => []
  | (key, value) :: entries =>
    ((bareKey? key).getD key.diagnostic ++ ": " ++ value.diagnostic) :: entryDiagnostics entries

end

def listDiagnostic (items : List Value) : String :=
  "[" ++ Text.joinWith ", " (itemDiagnostics items) ++ "]"

end SigmaCatalog.Yaml.Value
