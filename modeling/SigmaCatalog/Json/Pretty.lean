import SigmaCatalog.Json.Printer
import SigmaCatalog.Text.Splitting

/-!
# The indented text of a JSON value

Each member and element stands on a line of its own, indented by two blanks for every array and
object around it.  Empty arrays and objects stay on one line.
-/

namespace SigmaCatalog.Json

def indentation (depth : Nat) : String :=
  String.ofList (List.replicate (2 * depth) ' ')

/-- Lines between an opening and a closing mark. -/
def block (depth : Nat) (opening closing : String) (lines : List String) : String :=
  if lines.isEmpty then opening ++ closing
  else
    let inner := "\n" ++ indentation (depth + 1)
    opening ++ inner ++ Text.joinWith ("," ++ inner) lines ++ "\n" ++ indentation depth ++ closing

mutual

/-- The indented text of a value that stands at a depth. -/
def pretty (depth : Nat) : Json → String
  | array elements => block depth "[" "]" (prettyElements (depth + 1) elements)
  | members entries => block depth "\x7b" "\x7d" (prettyEntries (depth + 1) entries)
  | null => "null"
  | bool value => (bool value).text
  | number value => (number value).text
  | string value => quoted value

def prettyElements (depth : Nat) : List Json → List String
  | [] => []
  | element :: elements => element.pretty depth :: prettyElements depth elements

def prettyEntries (depth : Nat) : List (String × Json) → List String
  | [] => []
  | (name, value) :: entries =>
    (quoted name ++ ": " ++ value.pretty depth) :: prettyEntries depth entries

end

end SigmaCatalog.Json
