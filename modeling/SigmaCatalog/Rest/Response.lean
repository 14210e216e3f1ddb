import SigmaCatalog.Json.Parser
import SigmaCatalog.Json.Printer
import SigmaCatalog.Notice
import SigmaCatalog.Rest.Request
import SigmaCatalog.Text.Blank
import SigmaCatalog.Text.Quoted

/-!
# Responses of a store

A response is a status and a text.  `interpret` says what it means for the call that was made: only
what the store states in the expected form counts as done, and everything else is a failure.
-/

namespace SigmaCatalog.Rest

structure Response where
  status : Nat
  text : String
  deriving DecidableEq, Repr

/-- What was made of a response, with the warnings on the way. -/
abbrev Reading (α : Type) : Type :=
  Except StoreError α × List Warning

/-- Whether a status says that the request was carried out. -/
def isSuccess (status : Nat) : Bool :=
  200 ≤ status && status < 300

/-- The start of a text that is kept in a report. -/
def excerpt (text : String) : String :=
  String.ofList ((Text.trimChars text.toList).take 512)

/-- Reads the text of a response as JSON and goes on with it. -/
def withPayload {α : Type} (response : Response) (following : Json → Reading α) : Reading α :=
  match Json.parse? response.text with
  | some payload => following payload
  | none =>
    if isSuccess response.status then (.error (.unexpected "response body is not JSON"), [])
    else (.error (.rejected response.status (excerpt response.text)), [.errorNotJson])

/-- The text of a member of the error that a payload states. -/
def errorText? (payload : Json) (name : String) : Option String :=
  ((payload.get? "error").bind (Json.get? name)).bind Json.text?

/-- The failure that a payload states. -/
def refusal {α : Type} (index : String) (status : Nat) (payload : Json) : Reading α :=
  match errorText? payload "type" with
  | some "resource_already_exists_exception" => (.error (.indexExists index), [])
  | some "index_not_found_exception" => (.error (.noIndex index), [])
  | _ =>
    let reason := (errorText? payload "reason").getD payload.text
    (.error (.rejected status reason), [.requestRejected])

/-- The payload of a successful response, or the failure it states. -/
def withSuccess {α : Type} (index : String) (status : Nat) (payload : Json)
    (result : Except StoreError α) : Reading α :=
  if isSuccess status then (result, []) else refusal index status payload

def flag? (payload : Json) (name : String) : Option Bool :=
  (payload.get? name).bind Json.bool?

def member? (payload : Json) (name : String) : Option String :=
  (payload.get? name).bind Json.text?

def integer? (payload : Json) (name : String) : Option Int :=
  (payload.get? name).bind Json.int64?

/-- The failure of a payload without a member that it must have. -/
def missing (payload : Json) (name : String) : StoreError :=
  .unexpected s!"missing {name} in {payload.text}"

def idOf (payload : Json) : Except StoreError String :=
  match member? payload "_id" with
  | some id => .ok id
  | none => .error (missing payload "_id")

def versionOf (payload : Json) : Except StoreError Int :=
  match integer? payload "_version" with
  | some version => .ok version
  | none => .error (missing payload "_version")

def statusOf (payload : Json) : Except StoreError WriteEffect :=
  match member? payload "result" with
  | some "created" => .ok .created
  | some "updated" => .ok .updated
  | some "noop" => .ok .updated
  | some "deleted" => .ok .deleted
  | some other => .error (.unexpected s!"unknown write result Some({Text.quoted other})")
  | none => .error (.unexpected "unknown write result None")

def acknowledgementOf (payload : Json) : Except StoreError Acknowledgement := do
  let id ← idOf payload
  let version ← versionOf payload
  let status ← statusOf payload
  return { id, version, status }

def documentOf (payload : Json) : Except StoreError (Option StoredDocument) :=
  if flag? payload "found" = some true then do
    let id ← idOf payload
    return some {
      id
      version := (integer? payload "_version").getD 1
      seqNo := (integer? payload "_seq_no").getD 0
      primaryTerm := (integer? payload "_primary_term").getD 0
      source := (payload.get? "_source").getD .null }
  else return none

/-- What a response means for a call. -/
def interpret : (call : Call) → Response → Reading call.Answer
  | .indexExists index, response =>
    if response.status = 200 then (.ok true, [])
    else if response.status = 404 then (.ok false, [])
    else (.error (.rejected response.status s!"index exists check for '{index}'"), [])
  | .createIndex index _, response =>
    withPayload response fun payload =>
      withSuccess index response.status payload (.ok ((flag? payload "acknowledged").getD false))
  | .write index id .., response =>
    if response.status = 409 then (.error (.conflict index id), [])
    else withPayload response fun payload =>
      withSuccess index response.status payload (acknowledgementOf payload)
  | .get index _, response =>
    withPayload response fun payload =>
      if response.status = 404 && flag? payload "found" = some false then (.ok none, [])
      else withSuccess index response.status payload (documentOf payload)
  | .delete index _ _, response =>
    withPayload response fun payload =>
      if response.status = 404 && member? payload "result" = some "not_found" then (.ok none, [])
      else withSuccess index response.status payload ((acknowledgementOf payload).map some)

/-- What comes of a call when its request has been answered, or has failed. -/
def interpretOutcome (call : Call) : Option Response → Reading call.Answer
  | some response => interpret call response
  | none => (.error (.unreachable ""), [])

/-- What arrives of a response: a request for the head brings no text, and neither does the status
that says there is none. -/
def received (method : Method) (response : Response) : Response :=
  if method = .head || response.status = 204 then { response with text := "" } else response

end SigmaCatalog.Rest
