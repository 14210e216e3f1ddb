import SigmaCatalog.Rest.Path.Decoding
import SigmaCatalog.Rest.Response
import SigmaCatalog.Store.Memory
import SigmaCatalog.Text.Splitting

/-!
# A store behind an address

A server has a store in memory and answers the requests that are made of it at its address.
`Server.callOf?` reads a request back into the call that it was made from, and `Server.respond`
states the reply of the store as a response: a status, and a document that says what was done or why
it was not.
-/

namespace SigmaCatalog.Rest.Server

/-- The path after that of an address; the empty segment of the root is no part of it. -/
def below (base path : Path) : Path :=
  if base = .root then path else ⟨path.segments.drop base.segments.length⟩

/-- What a query adds to that of an address. -/
def added (own query : Option String) : String :=
  let own := own.getD ""
  let whole := query.getD ""
  if own = "" then whole else String.ofList (whole.toList.drop (own.toList.length + 1))

def parametersOf (query : String) : List (String × String) :=
  let (first, others) := Text.splitAll '&' query.toList
  (first :: others).filterMap fun part =>
    (Text.splitFirst '=' part).map fun (key, value) => (String.ofList key, String.ofList value)

def parameter? (parameters : List (String × String)) (name : String) : Option String :=
  (parameters.find? fun entry => entry.1 == name).map Prod.snd

def integer? (text : String) : Option Int :=
  match text.toList with
  | '-' :: digits => (Host.number? 10 digits).map fun (n : Nat) => -(n : Int)
  | digits => (Host.number? 10 digits).map Int.ofNat

/-- The condition that parameters put on a write. -/
def conditionOf (parameters : List (String × String)) : Option Precondition :=
  if parameter? parameters "op_type" = some "create" then some .absent
  else do
    let seqNo ← (parameter? parameters "if_seq_no").bind integer?
    let primaryTerm ← (parameter? parameters "if_primary_term").bind integer?
    return .unchanged seqNo primaryTerm

def timeoutOf (parameters : List (String × String)) : Nat :=
  match parameter? parameters "timeout" with
  | some text => (Host.number? 10 (text.toList.takeWhile (· != 's'))).getD 1
  | none => 1

def refreshOf (parameters : List (String × String)) : RefreshPolicy :=
  match (parameter? parameters "refresh").map RefreshPolicy.ofText with
  | some (.ok policy) => policy
  | _ => .none

/-- The call that a request asks for, by its method and the names in its path. -/
def callOf? (address : Address) (request : Request) : Option Call := do
  let parameters := parametersOf (added address.query request.query)
  match request.method, ← (below address.path request.path).names? with
  | .head, [index] => return .indexExists index
  | .put, [index] => return .createIndex index (← request.body)
  | .put, [index, "_doc", id] =>
    return .write index id (← request.body) (conditionOf parameters) (timeoutOf parameters)
      (refreshOf parameters)
  | .get, [index, "_doc", id] => return .get index id
  | .delete, [index, "_doc", id] => return .delete index id (refreshOf parameters)
  | _, _ => failure

def response (status : Nat) (payload : List (String × Json)) : Response :=
  { status, text := (Json.object payload).text }

/-- A response that states why a request was refused. -/
def refusal (status : Nat) (kind reason : String) : Response :=
  response status [
    ("error", .object [("type", .string kind), ("reason", .string reason)]),
    ("status", .ofInt status)]

/-- The response to a request that the store refused. -/
def failureResponse : StoreError → Response
  | .indexExists index =>
    refusal 400 "resource_already_exists_exception" s!"index [{index}] already exists"
  | .noIndex index => refusal 404 "index_not_found_exception" s!"no such index [{index}]"
  | .conflict _ id =>
    refusal 409 "version_conflict_engine_exception" s!"[{id}]: version conflict"
  | cause => refusal 500 "exception" cause.message

/-- The response that says whether something was found. -/
def existenceResponse (found : Bool) : Response :=
  { status := if found then 200 else 404, text := "" }

def creationResponse (acknowledged : Bool) : Response :=
  response 200 [("acknowledged", .bool acknowledged)]

def changeResponse (acknowledgement : Acknowledgement) : Response :=
  response (if acknowledgement.status = .created then 201 else 200) [
    ("_id", .string acknowledgement.id),
    ("_version", .ofInt acknowledgement.version),
    ("result", .string acknowledgement.status.name)]

def documentResponse (document : StoredDocument) : Response :=
  response 200 [
    ("found", .bool true),
    ("_id", .string document.id),
    ("_version", .ofInt document.version),
    ("_seq_no", .ofInt document.seqNo),
    ("_primary_term", .ofInt document.primaryTerm),
    ("_source", document.source)]

/-- The response that states the reply of a store to a call. -/
def respond : (call : Call) → call.Reply → Response
  | .indexExists _, .ok found => existenceResponse found
  | .createIndex _ _, .ok acknowledged => creationResponse acknowledged
  | .write .., .ok acknowledgement => changeResponse acknowledgement
  | .get _ _, .ok (some document) => documentResponse document
  | .get _ id, .ok none => response 404 [("found", .bool false), ("_id", .string id)]
  | .delete .., .ok (some acknowledgement) => changeResponse acknowledgement
  | .delete _ id _, .ok none =>
    response 404 [("_id", .string id), ("result", .string "not_found")]
  | _, .error cause => failureResponse cause

/-- The response to a request, and the store after it. -/
def answer (address : Address) (memory : Memory) (request : Request) : Response × Memory :=
  match callOf? address request with
  | some call =>
    let (reply, memory) := memory.perform call
    (received request.method (respond call reply), memory)
  | none => (refusal 400 "illegal_argument_exception" "no such request", memory)

/-- Makes a call of a server: sends the request of the call and reads the response. -/
def perform (endpoint : Endpoint) (memory : Memory) (call : Call) : call.Reply × Memory :=
  let (response, memory) := answer endpoint.address memory (Request.ofCall endpoint call)
  ((interpret call response).1, memory)

end SigmaCatalog.Rest.Server
