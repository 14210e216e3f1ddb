import SigmaCatalog.Store.Acknowledgement
import SigmaCatalog.Store.Document
import SigmaCatalog.Store.Error
import SigmaCatalog.Store.Refresh

/-!
# Store calls

A store is whatever answers these calls.  Each call takes effect at once or not at all.
-/

namespace SigmaCatalog

/-- What is asked of a store. -/
inductive Call where
  | indexExists (index : String)
  | createIndex (index : String) (schema : Json)
  /-- Creates or replaces a document, if the condition given holds. -/
  | write (index id : String) (body : Json) (condition : Option Precondition) (timeout : Nat)
    (refresh : RefreshPolicy)
  | get (index id : String)
  | delete (index id : String) (refresh : RefreshPolicy)
  deriving Repr

namespace Call

/-- What a store answers when it does what is asked. -/
abbrev Answer : Call → Type
  | indexExists _ => Bool
  /- Whether the creation is acknowledged. -/
  | createIndex _ _ => Bool
  | write .. => Acknowledgement
  | get _ _ => Option StoredDocument
  | delete .. => Option Acknowledgement

/-- What comes back from a call. -/
abbrev Reply (call : Call) : Type :=
  Except StoreError call.Answer

def index : Call → String
  | indexExists index => index
  | createIndex index _ => index
  | write index .. => index
  | get index _ => index
  | delete index .. => index

/-- A number of whole seconds as a duration. -/
def secondsText (seconds : Nat) : String :=
  if seconds = 0 then "0ns" else s!"{seconds}s"

/-- The name and condition of a write. -/
def conditionText : Option Precondition → String × String
  | none => ("write", "")
  | some .absent => ("write_if", " absent")
  | some (.unchanged seqNo primaryTerm) => ("write_if", s!" unchanged({seqNo},{primaryTerm})")

def text : Call → String
  | indexExists index => s!"exists {index}"
  | createIndex index _ => s!"create {index}"
  | write index id _ condition timeout refresh =>
    let (verb, conditionPart) := conditionText condition
    s!"{verb} {index} {id}{conditionPart} timeout={secondsText timeout} refresh={refresh.name}"
  | get index id => s!"get {index} {id}"
  | delete index id refresh => s!"delete {index} {id} refresh={refresh.name}"

end Call

end SigmaCatalog
