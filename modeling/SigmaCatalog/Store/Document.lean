import SigmaCatalog.Json.Basic

/-!
# Stored documents

A store numbers the writes of an index.  The number of the last write of a document, together with
the term of the primary copy that took it, names one revision of the document, and a write may be
made to depend on it.
-/

namespace SigmaCatalog

/-- A document as a store returns it. -/
structure StoredDocument where
  id : String
  version : Int
  /-- The number of the last write of the document. -/
  seqNo : Int
  /-- The term of the primary copy that took the last write. -/
  primaryTerm : Int
  source : Json
  deriving Repr

/-- What must hold of a document for a write to take place. -/
inductive Precondition where
  /-- There is no such document. -/
  | absent
  /-- The document is still at the revision named. -/
  | unchanged (seqNo primaryTerm : Int)
  deriving DecidableEq, Repr

namespace Precondition

/-- The condition that what was read is still there. -/
def asRead : Option StoredDocument → Precondition
  | none => absent
  | some document => unchanged document.seqNo document.primaryTerm

def holds : Precondition → Option StoredDocument → Bool
  | absent, current => current.isNone
  | unchanged seqNo primaryTerm, some document =>
    document.seqNo == seqNo && document.primaryTerm == primaryTerm
  | unchanged _ _, none => false

end Precondition

end SigmaCatalog
