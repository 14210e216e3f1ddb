import SigmaCatalog.Rest.Address
import SigmaCatalog.Store.Call
import SigmaCatalog.Text.Base64
import SigmaCatalog.Text.Splitting

/-!
# Requests to a store

Each store call becomes one request.  Calls about an index address the index; calls about a document
address the document in its index.  The parameters of a write carry its refresh policy, its timeout
and its condition.
-/

namespace SigmaCatalog.Rest

/-- What a request asks for. -/
inductive Method where
  | head
  | put
  | get
  | delete
  deriving DecidableEq, Repr

def Method.name : Method → String
  | head => "HEAD"
  | put => "PUT"
  | get => "GET"
  | delete => "DELETE"

structure Request where
  method : Method
  /-- The address up to its path. -/
  origin : String
  path : Path
  query : Option String
  /-- The value of the header that says who asks. -/
  authorization : Option String
  body : Option Json

namespace Request

/-- The path and query of the address. -/
def target (request : Request) : String :=
  request.path.text ++ match request.query with
    | some query => "?" ++ query
    | none => ""

def url (request : Request) : String :=
  request.origin ++ request.target

def contentType (request : Request) : Option String :=
  request.body.map fun _ => "application/json"

end Request

/-- A store behind an address, and who asks it. -/
structure Endpoint where
  address : Address
  username : Option String
  password : Option String

namespace Endpoint

/-- The endpoint that a connection names, if its address can be read. -/
def ofConnection? (connection : Connection) : Option Endpoint :=
  (Address.ofConnection? connection).map fun address =>
    { address, username := connection.username, password := connection.password }

/-- The header of a user with a password. -/
def authorization (endpoint : Endpoint) : Option String :=
  endpoint.username.map fun user =>
    let secret := user ++ ":" ++ endpoint.password.getD ""
    "Basic " ++ String.ofList (Text.base64 secret.toUTF8.toList)

/-- Parameters after the query that the address itself brings. -/
def queryWith (endpoint : Endpoint) (parameters : List (String × String)) : Option String :=
  if parameters.isEmpty then endpoint.address.query
  else
    let added := Text.joinWith "&" (parameters.map fun (key, value) => key ++ "=" ++ value)
    match endpoint.address.query with
    | none | some "" => some added
    | some query => some (query ++ "&" ++ added)

/-- A request for the names that follow the path of the endpoint. -/
def request (endpoint : Endpoint) (method : Method) (names : List String)
    (parameters : List (String × String)) (body : Option Json) : Request :=
  { method
    origin := endpoint.address.origin
    path := endpoint.address.path.addAll names
    query := endpoint.queryWith parameters
    authorization := endpoint.authorization
    body }

end Endpoint

/-- The names under which a document is found. -/
def documentNames (index id : String) : List String :=
  [index, "_doc", id]

/-- The parameters that make a write depend on a condition. -/
def conditionParameters : Option Precondition → List (String × String)
  | none => []
  | some .absent => [("op_type", "create")]
  | some (.unchanged seqNo primaryTerm) =>
    [("if_seq_no", toString seqNo), ("if_primary_term", toString primaryTerm)]

/-- The parameters of a write; a timeout is at least one second. -/
def writeParameters (condition : Option Precondition) (timeout : Nat) (refresh : RefreshPolicy) :
    List (String × String) :=
  [("refresh", refresh.parameter), ("timeout", s!"{max timeout 1}s")] ++
    conditionParameters condition

def Request.ofCall (endpoint : Endpoint) : Call → Request
  | .indexExists index => endpoint.request .head [index] [] none
  | .createIndex index schema => endpoint.request .put [index] [] (some schema)
  | .write index id body condition timeout refresh =>
    endpoint.request .put (documentNames index id) (writeParameters condition timeout refresh)
      (some body)
  | .get index id => endpoint.request .get (documentNames index id) [] none
  | .delete index id refresh =>
    endpoint.request .delete (documentNames index id) [("refresh", refresh.parameter)] none

end SigmaCatalog.Rest
