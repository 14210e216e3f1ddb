import SigmaCatalog.Store.Call

/-!
# Planned faults

In a rehearsal the answers to store calls can be planned: for each kind of call there is a queue of
faults, and every call of the kind takes the next one.  A fault that does not fit the call has no
effect.
-/

namespace SigmaCatalog

inductive CallKind where
  | indexExists
  | createIndex
  | write
  | conditionalWrite
  | get
  | delete
  deriving DecidableEq, Repr

def Call.kind : Call → CallKind
  | .indexExists _ => .indexExists
  | .createIndex _ _ => .createIndex
  | .write _ _ _ none _ _ => .write
  | .write _ _ _ (some _) _ _ => .conditionalWrite
  | .get _ _ => .get
  | .delete _ _ _ => .delete

/-- A planned answer. -/
inductive Fault where
  | fails (cause : StoreError)
  /-- The answer to whether an index exists. -/
  | finds (answer : Bool)
  /-- The answer to a creation, which then does not take place. -/
  | acknowledges (answer : Bool)
  /-- No answer ever comes. -/
  | hangs
  /-- Right after the document has been read, another writer replaces it. -/
  | rivalWrites (body : Json)
  /-- Right after the document has been read, another writer deletes it. -/
  | rivalDeletes
  /-- The call is answered as if nothing were planned. -/
  | nothing
  deriving Repr

/-- What becomes of a call. -/
inductive Fate (call : Call) where
  | replied (reply : call.Reply)
  | unanswered
  /-- The store answers, and another writer makes a call of its own after it. -/
  | answered (rival : Option Call)

/-- The fate of a call for which a fault is planned. -/
def Fault.fate : Fault → (call : Call) → Fate call
  | fails cause, _ => .replied (.error cause)
  | finds answer, .indexExists _ => .replied (.ok answer)
  | acknowledges answer, .createIndex _ _ => .replied (.ok answer)
  | hangs, _ => .unanswered
  | rivalWrites body, .get index id => .answered (some (.write index id body none 1 .none))
  | rivalDeletes, .get index id => .answered (some (.delete index id .none))
  | _, _ => .answered none

/-- The faults that are planned for each kind of call. -/
abbrev FaultPlan : Type :=
  CallKind → List Fault

namespace FaultPlan

def empty : FaultPlan := fun _ => []

/-- The plan with the queue of one kind replaced. -/
def replace (plan : FaultPlan) (kind : CallKind) (queue : List Fault) : FaultPlan :=
  fun other => if other = kind then queue else plan other

/-- The next fault for a kind of call, and the plan without it. -/
def take (plan : FaultPlan) (kind : CallKind) : Fault × FaultPlan :=
  match plan kind with
  | [] => (.nothing, plan)
  | fault :: queue => (fault, plan.replace kind queue)

end FaultPlan

end SigmaCatalog
