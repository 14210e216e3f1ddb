import SigmaCatalog.Json.Basic

/-!
# Acknowledgements

What a store reports about a write or a deletion of one document.
-/

namespace SigmaCatalog

/-- What a write did to a document. -/
inductive WriteEffect where
  | created
  | updated
  | deleted
  deriving DecidableEq, Repr

namespace WriteEffect

def name : WriteEffect → String
  | created => "created"
  | updated => "updated"
  | deleted => "deleted"

/-- The status with a name; the spelling is exact. -/
def ofName? (text : String) : Option WriteEffect :=
  [created, updated, deleted].find? fun status => status.name == text

/-- The status a JSON value holds: its name, or an object whose one member has that name and the
value `null`. -/
def ofJson? : Json → Option WriteEffect
  | .string text => ofName? text
  | .members [(text, .null)] => ofName? text
  | _ => none

end WriteEffect

/-- The report on a write or a deletion. -/
structure Acknowledgement where
  id : String
  /-- The version the store gave the document; a new document has version 1. -/
  version : Int
  status : WriteEffect
  deriving DecidableEq, Repr

end SigmaCatalog
