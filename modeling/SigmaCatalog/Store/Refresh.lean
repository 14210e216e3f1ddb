import SigmaCatalog.Text.Case

/-!
# Refresh policies

A refresh policy says when a written document becomes visible to searches.
-/

namespace SigmaCatalog

/-- When a written document becomes visible to searches. -/
inductive RefreshPolicy where
  /-- After the next periodic refresh. -/
  | none
  /-- At once: the write forces a refresh. -/
  | immediate
  /-- Before the write returns, which waits for a refresh. -/
  | waitUntil
  deriving DecidableEq, Repr, Inhabited

namespace RefreshPolicy

def name : RefreshPolicy → String
  | none => "none"
  | immediate => "immediate"
  | waitUntil => "wait_until"

/-- The value of the `refresh` parameter of a write request. -/
def parameter : RefreshPolicy → String
  | none => "false"
  | immediate => "true"
  | waitUntil => "wait_for"

/-- The policy a text names, by name or by parameter value, whatever the case of its ASCII letters;
an unreadable text is returned in lower case. -/
def ofText (text : String) : Except String RefreshPolicy :=
  match Text.lowerAscii text with
  | "none" | "false" => .ok none
  | "immediate" | "true" => .ok immediate
  | "wait_until" | "wait_for" => .ok waitUntil
  | other => .error other

def unknownMessage (lowered : String) : String :=
  s!"unknown refresh policy: '{lowered}'"

end RefreshPolicy

end SigmaCatalog
