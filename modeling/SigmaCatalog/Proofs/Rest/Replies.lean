import SigmaCatalog.Proofs.Json.ReadBack
import SigmaCatalog.Proofs.Rest.Addressing
import SigmaCatalog.Proofs.Store.Memory
import SigmaCatalog.Rest.Server

/-!
# Replies that responses convey

A response conveys the reply of a store to a call by its status and by the payload that its text is
read as; a payload may state more than is asked of it.  The client makes of such a response the
reply that it conveys.  A server that writes its payloads in compact text conveys the replies of a
store in memory, as far as they are read back from it.
-/

namespace SigmaCatalog.Rest

/-- Whether a payload states what was done to a document. -/
structure StatesChange (payload : Json) (acknowledgement : Acknowledgement) : Prop where
  id : payload.get? "_id" = some (.string acknowledgement.id)
  version : payload.get? "_version" = some (.ofInt acknowledgement.version)
  result : payload.get? "result" = some (.string acknowledgement.status.name)

/-- Whether a payload states a document. -/
structure StatesDocument (payload : Json) (document : StoredDocument) : Prop where
  found : payload.get? "found" = some (.bool true)
  id : payload.get? "_id" = some (.string document.id)
  version : payload.get? "_version" = some (.ofInt document.version)
  seqNo : payload.get? "_seq_no" = some (.ofInt document.seqNo)
  primaryTerm : payload.get? "_primary_term" = some (.ofInt document.primaryTerm)
  source : payload.get? "_source" = some document.source

/-- Whether a response conveys the reply of a store to a call. -/
inductive Conveys (response : Response) : (call : Call) → call.Reply → Prop
  | found {index : String} (status : response.status = 200) :
    Conveys response (.indexExists index) (.ok true)
  | notFound {index : String} (status : response.status = 404) :
    Conveys response (.indexExists index) (.ok false)
  | created {index : String} {schema payload : Json} (success : isSuccess response.status)
    (text : Json.parse? response.text = some payload)
    (acknowledged : payload.get? "acknowledged" = some (.bool true)) :
    Conveys response (.createIndex index schema) (.ok true)
  | taken {index : String} {schema payload : Json} (status : response.status = 400)
    (text : Json.parse? response.text = some payload)
    (error : errorText? payload "type" = some "resource_already_exists_exception") :
    Conveys response (.createIndex index schema) (.error (.indexExists index))
  | written {index id : String} {body payload : Json} {condition : Option Precondition}
    {timeout : Nat} {refresh : RefreshPolicy} {acknowledgement : Acknowledgement}
    (success : isSuccess response.status) (text : Json.parse? response.text = some payload)
    (change : StatesChange payload acknowledgement) :
    Conveys response (.write index id body condition timeout refresh) (.ok acknowledgement)
  | refused {index id : String} {body : Json} {condition : Option Precondition} {timeout : Nat}
    {refresh : RefreshPolicy} (status : response.status = 409) :
    Conveys response (.write index id body condition timeout refresh)
      (.error (.conflict index id))
  | document {index id : String} {payload : Json} {document : StoredDocument}
    (status : response.status = 200) (text : Json.parse? response.text = some payload)
    (stated : StatesDocument payload document) :
    Conveys response (.get index id) (.ok (some document))
  | noDocument {index id : String} {payload : Json} (status : response.status = 404)
    (text : Json.parse? response.text = some payload)
    (found : payload.get? "found" = some (.bool false)) :
    Conveys response (.get index id) (.ok none)
  | deleted {index id : String} {payload : Json} {refresh : RefreshPolicy}
    {acknowledgement : Acknowledgement} (status : response.status = 200)
    (text : Json.parse? response.text = some payload)
    (change : StatesChange payload acknowledgement) :
    Conveys response (.delete index id refresh) (.ok (some acknowledgement))
  | notDeleted {index id : String} {payload : Json} {refresh : RefreshPolicy}
    (status : response.status = 404) (text : Json.parse? response.text = some payload)
    (result : payload.get? "result" = some (.string "not_found")) :
    Conveys response (.delete index id refresh) (.ok none)
  | noIndex {call : Call} {index id : String} {payload : Json}
    (call_document : documentOf? call = some (index, id)) (status : response.status = 404)
    (text : Json.parse? response.text = some payload)
    (error : errorText? payload "type" = some "index_not_found_exception")
    (bare : payload.get? "found" = none ∧ payload.get? "result" = none) :
    Conveys response call (.error (.noIndex index))

/-- Whether the integers of a reply are of 64 bits with sign. -/
def Fits : (call : Call) → call.Reply → Prop
  | .write .., .ok acknowledgement => Json.isInt64 acknowledgement.version
  | .delete .., .ok (some acknowledgement) => Json.isInt64 acknowledgement.version
  | .get .., .ok (some document) =>
    Json.isInt64 document.version ∧ Json.isInt64 document.seqNo ∧ Json.isInt64 document.primaryTerm
  | _, _ => True

section Reading

variable {response : Response} {payload : Json}

theorem integer?_of_member {name : String} {n : Int}
    (h : payload.get? name = some (.ofInt n)) (hfits : Json.isInt64 n) :
    integer? payload name = some n := by
  rw [integer?, h]
  exact if_pos hfits

theorem member?_of_member {name text : String} (h : payload.get? name = some (.string text)) :
    member? payload name = some text := by
  rw [member?, h]
  rfl

theorem flag?_of_member {name : String} {value : Bool}
    (h : payload.get? name = some (.bool value)) : flag? payload name = some value := by
  rw [flag?, h]
  rfl

theorem StatesChange.acknowledgementOf {acknowledgement : Acknowledgement}
    (h : StatesChange payload acknowledgement) (hfits : Json.isInt64 acknowledgement.version) :
    acknowledgementOf payload = .ok acknowledgement := by
  have hid : idOf payload = .ok acknowledgement.id := by
    rw [idOf, member?_of_member h.id]
  have hversion : versionOf payload = .ok acknowledgement.version := by
    rw [versionOf, integer?_of_member h.version hfits]
  have hstatus : statusOf payload = .ok acknowledgement.status := by
    rw [statusOf, member?_of_member h.result]
    cases acknowledgement.status <;> rfl
  rw [Rest.acknowledgementOf, hid, hversion, hstatus]
  rfl

theorem StatesDocument.documentOf {document : StoredDocument} (h : StatesDocument payload document)
    (hversion : Json.isInt64 document.version) (hseqNo : Json.isInt64 document.seqNo)
    (hprimaryTerm : Json.isInt64 document.primaryTerm) :
    documentOf payload = .ok (some document) := by
  have hfound : flag? payload "found" = some true := flag?_of_member h.found
  have hid : idOf payload = .ok document.id := by
    rw [idOf, member?_of_member h.id]
  rw [Rest.documentOf, if_pos hfound, hid, integer?_of_member h.version hversion,
    integer?_of_member h.seqNo hseqNo, integer?_of_member h.primaryTerm hprimaryTerm, h.source]
  rfl

theorem withPayload_of_text {α : Type} (htext : Json.parse? response.text = some payload)
    (following : Json → Reading α) : withPayload response following = following payload := by
  rw [withPayload, htext]

theorem withSuccess_of_success {α : Type} {status : Nat} (hstatus : isSuccess status)
    (index : String) (result : Except StoreError α) :
    withSuccess index status payload result = (result, []) :=
  if_pos hstatus

/-- What a payload states of an index that exists already. -/
theorem withSuccess_of_taken {α : Type} {status : Nat} (hstatus : isSuccess status = false)
    (herror : errorText? payload "type" = some "resource_already_exists_exception")
    (index : String) (result : Except StoreError α) :
    withSuccess index status payload result = (.error (.indexExists index), []) := by
  rw [withSuccess, hstatus, refusal, herror]
  rfl

/-- What a payload states of an index that does not exist. -/
theorem withSuccess_of_noIndex {α : Type} {status : Nat} (hstatus : isSuccess status = false)
    (herror : errorText? payload "type" = some "index_not_found_exception")
    (index : String) (result : Except StoreError α) :
    withSuccess index status payload result = (.error (.noIndex index), []) := by
  rw [withSuccess, hstatus, refusal, herror]
  rfl

/-- The client makes of a response the reply that it conveys. -/
theorem interpret_of_conveys {call : Call} {reply : call.Reply} (h : Conveys response call reply)
    (hfits : Fits call reply) : (interpret call response).1 = reply := by
  cases h with
  | found status => rw [interpret, if_pos status]
  | notFound status =>
    rw [interpret, if_neg (by rw [status]; decide), if_pos status]
  | created success text acknowledged =>
    rw [interpret, withPayload_of_text text, withSuccess_of_success success,
      flag?_of_member acknowledged]
    rfl
  | taken status text error =>
    rw [interpret, withPayload_of_text text, status, withSuccess_of_taken (by decide) error]
  | written success text change =>
    have hstatus : response.status ≠ 409 := by
      intro heq
      rw [heq] at success
      cases success
    rw [interpret, if_neg hstatus, withPayload_of_text text, withSuccess_of_success success,
      change.acknowledgementOf hfits]
  | refused status => rw [interpret, if_pos status]
  | document status text stated =>
    obtain ⟨hversion, hseqNo, hprimaryTerm⟩ := hfits
    rw [interpret, withPayload_of_text text, status, if_neg (by simp),
      withSuccess_of_success (by decide), stated.documentOf hversion hseqNo hprimaryTerm]
  | noDocument status text found =>
    rw [interpret, withPayload_of_text text, status, flag?_of_member found]
    rfl
  | deleted status text change =>
    rw [interpret, withPayload_of_text text, status, if_neg (by simp),
      withSuccess_of_success (by decide), change.acknowledgementOf hfits]
    rfl
  | notDeleted status text result =>
    rw [interpret, withPayload_of_text text, status, member?_of_member result]
    rfl
  | noIndex call_document status text error bare =>
    obtain ⟨hfound, hresult⟩ := bare
    have hrefused : isSuccess 404 = false := by decide
    cases call with
    | indexExists => cases call_document
    | createIndex => cases call_document
    | write =>
      cases call_document
      rw [interpret, if_neg (by rw [status]; decide), withPayload_of_text text, status,
        withSuccess_of_noIndex hrefused error]
    | get =>
      cases call_document
      rw [interpret, withPayload_of_text text, status, flag?, hfound]
      exact congrArg Prod.fst (withSuccess_of_noIndex hrefused error _ _)
    | delete =>
      cases call_document
      rw [interpret, withPayload_of_text text, status, member?, hresult]
      exact congrArg Prod.fst (withSuccess_of_noIndex hrefused error _ _)

end Reading

/-! ## Compact text -/

section Compact

open Server

/-- How deep the arrays and objects of a document may be nested, to be read back from a payload. -/
def documentDepth : Nat := 126

theorem parse?_response (status : Nat) (payload : List (String × Json))
    (h : ∀ entry ∈ payload, entry.2.readsBack documentDepth) :
    Json.parse? (response status payload).text = some (.object payload) :=
  Json.parse?_text (Json.readsBack_object h)

theorem errorText?_refusal {kind reason : String} {status : Nat} :
    errorText? (.object [
      ("error", .object [("type", .string kind), ("reason", .string reason)]),
      ("status", .ofInt status)]) "type" = some kind := by
  simp [errorText?, Json.object, Json.get?, Entries.get?_insert, Json.text?]

theorem parse?_refusal {status : Nat} (hstatus : status < 1000) (kind reason : String) :
    Json.parse? (Server.refusal status kind reason).text = some (.object [
      ("error", .object [("type", .string kind), ("reason", .string reason)]),
      ("status", .ofInt status)]) := by
  refine parse?_response _ _ fun entry hentry => ?_
  rcases List.mem_pair.mp hentry with rfl | rfl
  · refine Json.readsBack_object fun entry hentry => ?_
    rcases List.mem_pair.mp hentry with rfl | rfl
    · exact Json.readsBack_string _ _
    · exact Json.readsBack_string _ _
  · exact Json.readsBack_ofInt (by simp [Json.isInt64]; omega) _

/-- The response to a change states it. -/
theorem statesChange_changeResponse {acknowledgement : Acknowledgement}
    (hfits : Json.isInt64 acknowledgement.version) :
    ∃ payload, Json.parse? (changeResponse acknowledgement).text = some payload ∧
      StatesChange payload acknowledgement := by
  refine ⟨_, parse?_response _ _ ?_, ?_, ?_, ?_⟩
  · simpa using ⟨Json.readsBack_string _ _, Json.readsBack_ofInt hfits _, Json.readsBack_string _ _⟩
  all_goals simp [Json.object, Json.get?, Entries.get?_insert]

/-- The members of the payload with a document. -/
def documentMembers (document : StoredDocument) : List (String × Json) :=
  [("found", .bool true), ("_id", .string document.id), ("_version", .ofInt document.version),
    ("_seq_no", .ofInt document.seqNo), ("_primary_term", .ofInt document.primaryTerm),
    ("_source", document.source)]

theorem statesDocument_documentMembers (document : StoredDocument) :
    StatesDocument (.object (documentMembers document)) document := by
  refine ⟨?_, ?_, ?_, ?_, ?_, ?_⟩
  all_goals simp [documentMembers, Json.object, Json.get?, Entries.get?_insert]

section Documents

variable {index id : String} {document : StoredDocument} {depth : Nat}

theorem readsBack_documentMembers (hfits : Fits (.get index id) (.ok (some document)))
    (hsource : document.source.readsBack depth) :
    (Json.object (documentMembers document)).readsBack (depth + 1) := by
  obtain ⟨hversion, hseqNo, hprimaryTerm⟩ := hfits
  refine Json.readsBack_object ?_
  simpa [documentMembers] using ⟨Json.readsBack_bool _ _, Json.readsBack_string _ _,
    Json.readsBack_ofInt hversion _, Json.readsBack_ofInt hseqNo _,
    Json.readsBack_ofInt hprimaryTerm _, hsource⟩

/-- The response with a document states it. -/
theorem statesDocument_documentResponse (hfits : Fits (.get index id) (.ok (some document)))
    (hsource : document.source.readsBack documentDepth) :
    ∃ payload, Json.parse? (documentResponse document).text = some payload ∧
      StatesDocument payload document :=
  ⟨_, Json.parse?_text (readsBack_documentMembers hfits hsource),
    statesDocument_documentMembers document⟩

/-- A client does not get a document back that is nested deeper than its reader goes. -/
theorem interpret_documentResponse_of_deep (hfits : Fits (.get index id) (.ok (some document)))
    (hdepth : documentDepth ≤ depth) (hdeep : document.source.readsBack documentDepth = false)
    (hsource : document.source.readsBack depth) :
    (interpret (.get index id) (documentResponse document)).1 =
      .error (.unexpected "response body is not JSON") := by
  have hrefused : (Json.object (documentMembers document)).readsBack Json.Parser.maxDepth = false := by
    refine eq_false_of_ne_true fun hread => ?_
    have hmember := Json.readsBack_of_get? hread (statesDocument_documentMembers document).source
    exact Bool.false_ne_true (hdeep.symm.trans hmember)
  have hnone : Json.parse? (documentResponse document).text = none :=
    Json.parse?_text_of_deep (Nat.succ_le_succ hdepth) hrefused
      (readsBack_documentMembers hfits hsource)
  rw [interpret, withPayload, hnone]
  rfl

end Documents

theorem get?_refusal {status : Nat} {kind reason name : String}
    (herror : name ≠ "error") (hstatus : name ≠ "status") :
    (Json.object [
      ("error", .object [("type", .string kind), ("reason", .string reason)]),
      ("status", .ofInt status)]).get? name = none := by
  simp [Json.object, Json.get?, Entries.get?_insert, Entries.get?, herror, hstatus]

theorem conveys_noIndex {call : Call} {index id : String}
    (hdocument : documentOf? call = some (index, id)) :
    Conveys (failureResponse (.noIndex index)) call (.error (.noIndex index)) :=
  .noIndex hdocument rfl (parse?_refusal (by decide) _ _) errorText?_refusal
    ⟨get?_refusal (by decide) (by decide), get?_refusal (by decide) (by decide)⟩

variable {memory : Memory}

/-- A server conveys the replies of a store whose documents are read back. -/
theorem conveys_respond {call : Call} (hfits : Fits call (memory.perform call).1)
    (hread : ∀ index id document, memory.document? index id = some document →
      document.source.readsBack documentDepth) :
    Conveys (respond call (memory.perform call).1) call (memory.perform call).1 := by
  cases call with
  | indexExists index =>
    rw [Memory.perform_indexExists]
    cases (memory.index? index).isSome with
    | true => exact .found rfl
    | false => exact .notFound rfl
  | createIndex index schema =>
    cases hfound : memory.index? index with
    | none =>
      rw [Memory.perform_createIndex_of_none hfound]
      have htext := parse?_response 200
        [("acknowledged", .bool true)] (by simpa using Json.readsBack_bool _ _)
      exact .created rfl htext (by simp [Json.object, Json.get?, Entries.get?_insert])
    | some found =>
      rw [Memory.perform_createIndex_of_some hfound]
      exact .taken rfl (parse?_refusal (by decide) _ _) errorText?_refusal
  | write index id body condition timeout refresh =>
    cases hfound : memory.index? index with
    | none =>
      rw [Memory.perform, Memory.withIndex, hfound]
      exact conveys_noIndex rfl
    | some found =>
      rw [Memory.perform_write_of_index id hfound] at hfits ⊢
      by_cases hpermits : Memory.permits condition (memory.document? index id) = true
      · rw [if_pos hpermits] at hfits ⊢
        obtain ⟨payload, htext, hchange⟩ := statesChange_changeResponse hfits
        have hsuccess : isSuccess (changeResponse (found.acknowledge id)).status := by
          change isSuccess (if _ then 201 else 200)
          split <;> rfl
        exact .written hsuccess htext hchange
      · rw [if_neg hpermits]
        exact .refused rfl
  | get index id =>
    cases hfound : memory.index? index with
    | none =>
      rw [Memory.perform_get, hfound]
      exact conveys_noIndex rfl
    | some found =>
      rw [Memory.perform_get_of_index id hfound] at hfits ⊢
      cases hdocument : memory.document? index id with
      | none =>
        have htext := parse?_response 404 [("found", .bool false), ("_id", .string id)]
          (by simpa using ⟨Json.readsBack_bool _ _, Json.readsBack_string _ _⟩)
        exact .noDocument rfl htext (by simp [Json.object, Json.get?, Entries.get?_insert])
      | some document =>
        rw [hdocument] at hfits
        obtain ⟨payload, htext, hstated⟩ :=
          statesDocument_documentResponse hfits (hread index id document hdocument)
        exact .document rfl htext hstated
  | delete index id refresh =>
    cases hfound : memory.index? index with
    | none =>
      rw [Memory.perform, Memory.withIndex, hfound]
      exact conveys_noIndex rfl
    | some found =>
      rw [Memory.perform, Memory.withIndex, hfound] at hfits ⊢
      cases hdocument : found.documents.get? id with
      | none =>
        simp only [hdocument]
        have htext := parse?_response 404 [("_id", .string id), ("result", .string "not_found")]
          (by simpa using ⟨Json.readsBack_string _ _, Json.readsBack_string _ _⟩)
        exact .notDeleted rfl htext (by simp [Json.object, Json.get?, Entries.get?_insert])
      | some document =>
        simp only [hdocument] at hfits ⊢
        obtain ⟨payload, htext, hchange⟩ := statesChange_changeResponse hfits
        exact .deleted rfl htext hchange

end Compact

end SigmaCatalog.Rest
