import SigmaCatalog.Store.Call

/-!
# A store in memory

A store with one node, whose term never changes.  Creating an index that exists fails, a document
call on an index that does not exist fails, and each index numbers its writes from zero.
-/

namespace SigmaCatalog

namespace Memory

/-- The term of the only node. -/
def primaryTerm : Int := 1

/-- An index: its schema, its documents by identifier, and the number of its next write. -/
structure Index where
  schema : Json
  documents : Table StoredDocument
  nextSeqNo : Int

namespace Index

def empty (schema : Json) : Index :=
  { schema, documents := ∅, nextSeqNo := 0 }

/-- What a write of `id` does, by the document that is there. -/
def acknowledge (index : Index) (id : String) : Acknowledgement :=
  match index.documents.get? id with
  | some document => { id, version := document.version + 1, status := .updated }
  | none => { id, version := 1, status := .created }

def put (index : Index) (id : String) (body : Json) : Index :=
  { index with
    documents := index.documents.insert id {
      id
      version := (index.acknowledge id).version
      seqNo := index.nextSeqNo
      primaryTerm
      source := body }
    nextSeqNo := index.nextSeqNo + 1 }

end Index

end Memory

/-- The indices of a store in memory, by name. -/
structure Memory where
  indices : Table Memory.Index

namespace Memory

def empty : Memory :=
  ⟨∅⟩

def index? (memory : Memory) (name : String) : Option Index :=
  memory.indices.get? name

def setIndex (memory : Memory) (name : String) (index : Index) : Memory :=
  ⟨memory.indices.insert name index⟩

@[simp]
theorem index?_empty (name : String) : empty.index? name = none :=
  rfl

theorem index?_setIndex (memory : Memory) (name other : String) (index : Index) :
    (memory.setIndex name index).index? other =
      if other = name then some index else memory.index? other :=
  Table.get?_insert memory.indices name other index

def document? (memory : Memory) (index id : String) : Option StoredDocument :=
  (memory.index? index).bind fun found => found.documents.get? id

/-- The number of documents of an index; an index that does not exist has none. -/
def count (memory : Memory) (index : String) : Nat :=
  match memory.index? index with
  | some found => found.documents.toList.length
  | none => 0

def permits (condition : Option Precondition) (current : Option StoredDocument) : Bool :=
  match condition with
  | none => true
  | some condition => condition.holds current

/-- A call to a document of an index that must exist. -/
def withIndex {α : Type} (memory : Memory) (name : String)
    (act : Index → Except StoreError α × Memory) : Except StoreError α × Memory :=
  match memory.index? name with
  | some index => act index
  | none => (.error (.noIndex name), memory)

/-- The answer to a call and the store after it. -/
def perform (memory : Memory) : (call : Call) → call.Reply × Memory
  | .indexExists name => (.ok (memory.index? name).isSome, memory)
  | .createIndex name schema =>
    match memory.index? name with
    | some _ => (.error (.indexExists name), memory)
    | none => (.ok true, memory.setIndex name (.empty schema))
  | .write name id body condition _ _ =>
    memory.withIndex name fun index =>
      if permits condition (index.documents.get? id) then
        (.ok (index.acknowledge id), memory.setIndex name (index.put id body))
      else (.error (.conflict name id), memory)
  | .get name id => memory.withIndex name fun index => (.ok (index.documents.get? id), memory)
  | .delete name id _ =>
    memory.withIndex name fun index =>
      match index.documents.get? id with
      | none => (.ok none, memory)
      | some document =>
        (.ok (some { id := document.id, version := document.version + 1, status := .deleted }),
          memory.setIndex name { index with documents := index.documents.erase id })

def performAll (memory : Memory) (calls : List Call) : Memory :=
  calls.foldl (fun memory call => (memory.perform call).2) memory

end Memory

end SigmaCatalog
