import Mathlib.Algebra.Group.Int.Defs
import Mathlib.Algebra.Group.Nat.Defs
import SigmaCatalog.Proofs.Rest.Replies
import SigmaCatalog.Proofs.Rest.Requests
import SigmaCatalog.Proofs.Store.Bounds

/-!
# A store behind an address and a store in memory

A client makes calls of a server one after another.  If the server reads the requests as the calls
that they ask for, does what a store in memory does and conveys its replies, then the client gets the
replies of the store in memory: integers are read back as long as there are fewer than `2 ^ 63` calls
to count.  A server that answers in compact text does all this when the documents that are written
are read back from their texts.
-/

namespace SigmaCatalog

def Call.body? : Call → Option Json
  | .write _ _ body .. => some body
  | _ => none

/-- A call with what came back from it. -/
abbrev Answered : Type :=
  (call : Call) × call.Reply

/-- Calls that are made of a store one after another, with what comes back from them. -/
def answeredBy {σ : Type} (perform : σ → (call : Call) → call.Reply × σ) (state : σ) :
    List Call → List Answered
  | [] => []
  | call :: calls =>
    ⟨call, (perform state call).1⟩ :: answeredBy perform (perform state call).2 calls

theorem map_answeredBy {σ : Type} (perform : σ → (call : Call) → call.Reply × σ) (state : σ)
    (calls : List Call) : (answeredBy perform state calls).map Sigma.fst = calls := by
  induction calls generalizing state with
  | nil => rfl
  | cons call calls ih => rw [answeredBy, List.map_cons, ih]

namespace Rest

theorem isInt64_of_within {bound n : Int} (hbound : bound < 2 ^ 63) (h : 0 ≤ n ∧ n ≤ bound) :
    Json.isInt64 n := by
  simp [Json.isInt64]
  omega

/-- The numbers in the replies of a store are of 64 bits until it has given too many. -/
theorem fits_perform {memory : Memory} {bound : Int} (h : memory.Within bound)
    (hbound : bound + 1 < 2 ^ 63) (call : Call) : Fits call (memory.perform call).1 := by
  cases call with
  | indexExists => exact trivial
  | createIndex index schema =>
    cases hfound : memory.index? index with
    | none =>
      rw [Memory.perform_createIndex_of_none hfound]
      exact trivial
    | some found =>
      rw [Memory.perform_createIndex_of_some hfound]
      exact trivial
  | write index id body condition timeout refresh =>
    cases hfound : memory.index? index with
    | none =>
      rw [Memory.perform, Memory.withIndex, hfound]
      exact trivial
    | some found =>
      rw [Memory.perform_write_of_index id hfound]
      by_cases hpermits : Memory.permits condition (memory.document? index id) = true
      · rw [if_pos hpermits]
        exact isInt64_of_within hbound (h.acknowledge hfound id)
      · rw [if_neg hpermits]
        exact trivial
  | get index id =>
    cases hfound : memory.index? index with
    | none =>
      rw [Memory.perform_get, hfound]
      exact trivial
    | some found =>
      rw [Memory.perform_get_of_index id hfound]
      cases hdocument : memory.document? index id with
      | none => exact trivial
      | some document =>
        have hversion := h.version index id document hdocument
        have hseqNo := h.seqNo index id document hdocument
        have hterm := h.term index id document hdocument
        have hlt : bound < 2 ^ 63 := by omega
        refine ⟨isInt64_of_within hlt hversion, isInt64_of_within hlt hseqNo, ?_⟩
        rw [hterm]
        decide
  | delete index id refresh =>
    cases hfound : memory.index? index with
    | none =>
      rw [Memory.perform, Memory.withIndex, hfound]
      exact trivial
    | some found =>
      rw [Memory.perform, Memory.withIndex, hfound]
      cases hdocument : found.documents.get? id with
      | none =>
        simp only [hdocument]
        exact trivial
      | some document =>
        simp only [hdocument]
        rw [← Memory.document?_of_index id hfound] at hdocument
        obtain ⟨hlow, hhigh⟩ := h.version index id document hdocument
        refine isInt64_of_within hbound (n := document.version + 1) ?_
        omega

/-! ## Conversations -/

/-- Whether a server at an address that has a store in memory may answer a request so. -/
def Server.Answers (address : Address) (memory : Memory) (request : Request) (response : Response)
    (after : Memory) : Prop :=
  ∃ call, callOf? address request = some call ∧
    Conveys response call (memory.perform call).1 ∧ after = (memory.perform call).2

/-- What comes of the calls that a client makes of a server with a store in memory. -/
inductive Conversation (endpoint : Endpoint) : Memory → List Answered → Prop
  | nil (memory : Memory) : Conversation endpoint memory []
  | cons {memory after : Memory} {call : Call} {response : Response} {answered : List Answered}
    (answer : Server.Answers endpoint.address memory (Request.ofCall endpoint call) response after)
    (later : Conversation endpoint after answered) :
    Conversation endpoint memory (⟨call, (interpret call response).1⟩ :: answered)

section Conversations

variable {endpoint : Endpoint} {memory after : Memory} {call : Call} {response : Response}
  {bound : Int}

/-- What a client makes of the answer to a call is the reply of the store. -/
theorem Server.Answers.interpret
    (h : Server.Answers endpoint.address memory (Request.ofCall endpoint call) response after)
    (hnames : ∀ name ∈ call.names, Addressable name ∧ name ≠ "")
    (hfits : Fits call.sent (memory.perform call.sent).1) :
    (interpret call response).1 = (memory.perform call).1 ∧ after = (memory.perform call).2 := by
  obtain ⟨asked, hasked, hconveys, rfl⟩ := h
  rw [Server.callOf?_ofCall endpoint hnames] at hasked
  obtain rfl := Option.some.inj hasked
  have hreply := interpret_of_conveys hconveys hfits
  -- A store in memory does not wait, so the timeout of a write makes no difference to it.
  cases call with
  | indexExists | createIndex | write | get | delete => exact ⟨hreply, rfl⟩

theorem Conversation.eq_answeredBy {answered : List Answered}
    (h : Conversation endpoint memory answered) (hwithin : memory.Within bound)
    (hbound : bound + answered.length < 2 ^ 63)
    (hnames : ∀ entry ∈ answered, ∀ name ∈ entry.1.names, Addressable name ∧ name ≠ "") :
    answered = answeredBy Memory.perform memory (answered.map Sigma.fst) := by
  induction h generalizing bound with
  | nil => rfl
  | @cons memory after call response answered answer later ih =>
    obtain ⟨hcall, hothers⟩ := List.forall_mem_cons.mp hnames
    rw [List.length_cons] at hbound
    have hfits := fits_perform hwithin (by omega) call.sent
    obtain ⟨hreply, rfl⟩ := answer.interpret hcall hfits
    have hlater := ih (hwithin.step (memory.effect call)) (by omega) hothers
    rw [List.map_cons, answeredBy, hreply, ← hlater]

theorem status_respond_ne (call : Call) (reply : call.Reply) :
    (Server.respond call reply).status ≠ 204 := by
  unfold Server.respond
  split
  · next found => cases found <;> decide
  · exact fun h => nomatch h
  · next acknowledgement =>
    change (if _ then 201 else 200) ≠ 204
    split <;> decide
  · exact fun h => nomatch h
  · exact fun h => nomatch h
  · next acknowledgement =>
    change (if _ then 201 else 200) ≠ 204
    split <;> decide
  · exact fun h => nomatch h
  · next cause => cases cause <;> exact fun h => nomatch h

/-- What arrives of a response conveys what the response does. -/
theorem Conveys.received {reply : call.Reply} (h : Conveys response call reply)
    (hstatus : response.status ≠ 204) (endpoint : Endpoint) :
    Conveys (received (Request.ofCall endpoint call).method response) call reply := by
  have hwhole (method : Method) (hmethod : method ≠ .head) :
      Rest.received method response = response := by
    simp [Rest.received, hmethod, hstatus]
  cases call with
  | indexExists index =>
    cases h with
    | found status => exact .found status
    | notFound status => exact .notFound status
    | noIndex call_document => cases call_document
  | createIndex | write =>
    change Conveys (Rest.received .put response) _ reply
    rw [hwhole .put (by decide)]
    exact h
  | get =>
    change Conveys (Rest.received .get response) _ reply
    rw [hwhole .get (by decide)]
    exact h
  | delete =>
    change Conveys (Rest.received .delete response) _ reply
    rw [hwhole .delete (by decide)]
    exact h

/-- A server that answers in compact text states the reply of its store. -/
theorem Server.answer_eq (memory : Memory)
    (hnames : ∀ name ∈ call.names, Addressable name ∧ name ≠ "") :
    Server.answer endpoint.address memory (Request.ofCall endpoint call) =
      (received (Request.ofCall endpoint call).method
        (Server.respond call.sent (memory.perform call.sent).1), (memory.perform call.sent).2) := by
  rw [Server.answer, Server.callOf?_ofCall endpoint hnames]

/-- It conveys the reply where the documents of its store are read back. -/
theorem Server.answers_answer (hnames : ∀ name ∈ call.names, Addressable name ∧ name ≠ "")
    (hfits : Fits call.sent (memory.perform call.sent).1)
    (hread : ∀ index id document, memory.document? index id = some document →
      document.source.readsBack documentDepth) :
    Server.Answers endpoint.address memory (Request.ofCall endpoint call)
      (Server.answer endpoint.address memory (Request.ofCall endpoint call)).1
      (Server.answer endpoint.address memory (Request.ofCall endpoint call)).2 := by
  have hmethod : (Request.ofCall endpoint call.sent).method =
      (Request.ofCall endpoint call).method := by
    cases call <;> rfl
  have hconveys := (conveys_respond hfits hread).received (status_respond_ne _ _) endpoint
  rw [hmethod] at hconveys
  rw [Server.answer_eq memory hnames]
  exact ⟨call.sent, Server.callOf?_ofCall endpoint hnames, hconveys, rfl⟩

/-- What a call does to the store of a server does not depend on what the client makes of the
response. -/
theorem Server.perform_snd (memory : Memory)
    (hnames : ∀ name ∈ call.names, Addressable name ∧ name ≠ "") :
    (Server.perform endpoint memory call).2 = (memory.perform call).2 := by
  change (Server.answer endpoint.address memory (Request.ofCall endpoint call)).2 = _
  rw [Server.answer_eq memory hnames]
  cases call <;> rfl

/-- A client cannot read a document that is nested deeper than its reader goes. -/
theorem Server.perform_of_deep {index id : String} {document : StoredDocument} {depth : Nat}
    (hnames : ∀ name ∈ (Call.get index id).names, Addressable name ∧ name ≠ "")
    (hdocument : (memory.perform (.get index id)).1 = .ok (some document))
    (hfits : Fits (.get index id) (.ok (some document))) (hdepth : documentDepth ≤ depth)
    (hdeep : document.source.readsBack documentDepth = false)
    (hsource : document.source.readsBack depth) :
    (Server.perform endpoint memory (.get index id)).1 =
      .error (.unexpected "response body is not JSON") := by
  change (Rest.interpret (.get index id)
    (Server.answer endpoint.address memory (Request.ofCall endpoint (.get index id))).1).1 = _
  rw [Server.answer_eq memory hnames]
  change (Rest.interpret (.get index id) (Rest.received .get
    (Server.respond (.get index id) (memory.perform (.get index id)).1))).1 = _
  rw [hdocument]
  exact interpret_documentResponse_of_deep hfits hdepth hdeep hsource

theorem Server.conversation {calls : List Call} (hwithin : memory.Within bound)
    (hbound : bound + calls.length < 2 ^ 63)
    (hnames : ∀ call ∈ calls, ∀ name ∈ call.names, Addressable name ∧ name ≠ "")
    (hread : ∀ index id document, memory.document? index id = some document →
      document.source.readsBack documentDepth)
    (hbodies : ∀ call ∈ calls, ∀ body ∈ call.body?, body.readsBack documentDepth) :
    Conversation endpoint memory (answeredBy (Server.perform endpoint) memory calls) := by
  induction calls generalizing memory bound with
  | nil => exact .nil memory
  | cons call calls ih =>
    obtain ⟨hcall, hothers⟩ := List.forall_mem_cons.mp hnames
    obtain ⟨hbody, hlater⟩ := List.forall_mem_cons.mp hbodies
    rw [List.length_cons] at hbound
    have hfits := fits_perform hwithin (by omega) call.sent
    have heffect := memory.effect call
    have hafter : (Server.perform endpoint memory call).2 = (memory.perform call).2 :=
      Server.perform_snd memory hcall
    rw [← hafter] at heffect
    refine .cons (Server.answers_answer hcall hfits hread)
      (ih (hwithin.step heffect) (by omega) hothers ?_ hlater)
    intro index id document hdocument
    rcases heffect.document_cases hdocument with hold | ⟨body, _, _, _, _, rfl, _, rfl⟩
    · exact hread index id document hold
    · exact hbody body rfl

end Conversations

/-- Fewer than `2 ^ 63` calls with addressable names, made of a server that keeps a store in memory
and conveys its replies, are answered as the store in memory answers them.  A server that answers in
compact text is such a server where the documents that are written are read back: none is nested
deeper than `documentDepth`, and every number in one is the number that its text is read as. -/
theorem replies_of_server (endpoint : Endpoint) (calls : List Call)
    (hnames : ∀ call ∈ calls, ∀ name ∈ call.names, Addressable name ∧ name ≠ "")
    (hcount : calls.length < 2 ^ 63) :
    (∀ answered, Conversation endpoint .empty answered → answered.map Sigma.fst = calls →
      answered = answeredBy Memory.perform .empty calls) ∧
    ((∀ call ∈ calls, ∀ body ∈ call.body?, body.readsBack documentDepth) →
      Conversation endpoint .empty (answeredBy (Server.perform endpoint) .empty calls) ∧
      answeredBy (Server.perform endpoint) .empty calls =
        answeredBy Memory.perform .empty calls) := by
  have hall : ∀ answered, Conversation endpoint .empty answered → answered.map Sigma.fst = calls →
      answered = answeredBy Memory.perform .empty calls := by
    rintro answered hconversation rfl
    rw [List.length_map] at hcount
    refine hconversation.eq_answeredBy Memory.within_empty (by omega) fun entry hentry => ?_
    exact hnames entry.1 (List.mem_map_of_mem hentry)
  refine ⟨hall, fun hbodies => ?_⟩
  have hconversation : Conversation endpoint .empty
      (answeredBy (Server.perform endpoint) .empty calls) := by
    refine Server.conversation Memory.within_empty (by omega) hnames ?_ hbodies
    intro index id document hdocument
    cases hdocument
  exact ⟨hconversation, hall _ hconversation (map_answeredBy _ _ _)⟩

/-- Calls that write a document, read it and remove it. -/
def keepingCalls (body : Json) : List Call :=
  [.createIndex "rules" (.members []), .createIndex "rules" (.members []),
    .write "rules" "a/é" body (some .absent) 0 .none,
    .write "rules" "a/é" body (some (.unchanged 0 1)) 1 .waitUntil,
    .write "rules" "a/é" body (some (.unchanged 0 1)) 1 .none, .get "rules" "a/é",
    .delete "rules" "a/é" .immediate, .delete "rules" "a/é" .none, .get "rules" "a/é",
    .get "none" "a/é", .indexExists "none"]

theorem names_keepingCalls (body : Json) :
    ∀ call ∈ keepingCalls body, ∀ name ∈ call.names, Addressable name ∧ name ≠ "" := by
  have hrules : Addressable "rules" := ⟨by decide, by decide, by decide⟩
  have hnone : Addressable "none" := ⟨by decide, by decide, by decide⟩
  have hid : Addressable "a/é" := ⟨by decide, by decide, by decide⟩
  simp [keepingCalls, Call.names, hrules, hnone, hid]

/-- A document with the number 1.5. -/
def fractionDocument : Json :=
  .members [("x", .number (.real (.finite false 6755399441055744 (-52))))]

theorem replies_of_server_fraction :
    (∀ call ∈ keepingCalls fractionDocument, ∀ name ∈ call.names,
        Addressable name ∧ name ≠ "") ∧
      (keepingCalls fractionDocument).length < 2 ^ 63 ∧
      (∀ call ∈ keepingCalls fractionDocument, ∀ body ∈ call.body?,
        body.readsBack documentDepth) ∧
      Conversation localEndpoint .empty
        (answeredBy (Server.perform localEndpoint) .empty (keepingCalls fractionDocument)) ∧
      answeredBy (Server.perform localEndpoint) .empty (keepingCalls fractionDocument) =
        answeredBy Memory.perform .empty (keepingCalls fractionDocument) := by
  have hnames := names_keepingCalls fractionDocument
  have hcount : (keepingCalls fractionDocument).length < 2 ^ 63 := by decide
  have hdocument : fractionDocument.readsBack documentDepth := by decide +kernel
  have hbodies : ∀ call ∈ keepingCalls fractionDocument, ∀ body ∈ call.body?,
      body.readsBack documentDepth := by
    simp [keepingCalls, Call.body?, hdocument]
  exact ⟨hnames, hcount, hbodies, (replies_of_server localEndpoint _ hnames hcount).2 hbodies⟩

/-- Calls that write a document. -/
def writingCalls (body : Json) : List Call :=
  [.createIndex "rules" (.members []), .write "rules" "a" body none 1 .none]

/-- Calls that write a document and read it. -/
def readingCalls (body : Json) : List Call :=
  writingCalls body ++ [.get "rules" "a"]

/-- The sources of the documents that were found, as texts. -/
def foundSources (answered : List Answered) : List String :=
  answered.filterMap fun
    | ⟨.get _ _, .ok (some document)⟩ => some document.source.text
    | _ => none

/-- A document with a number that its text is not read as. -/
def roundedDocument : Json :=
  .members [("x", .number (.real (.finite false 8112963841460669 (-53))))]

/-- A document that is nested deeper than it is read. -/
def nestedDocument : Json :=
  .members [("x", (List.replicate documentDepth ()).foldl (fun body _ => .array [body]) .null)]

theorem names_readingCalls (body : Json) :
    ∀ call ∈ readingCalls body, ∀ name ∈ call.names, Addressable name ∧ name ≠ "" := by
  have hrules : Addressable "rules" := ⟨by decide, by decide, by decide⟩
  have hid : Addressable "a" := ⟨by decide, by decide, by decide⟩
  simp [readingCalls, writingCalls, Call.names, hrules, hid]

/-- A document that is nested deeper than it is read is not found. -/
theorem foundSources_of_deep {body : Json} {depth : Nat} (hdepth : documentDepth ≤ depth)
    (hdeep : body.readsBack documentDepth = false) (hbody : body.readsBack depth) :
    foundSources (answeredBy (Server.perform localEndpoint) .empty (readingCalls body)) = [] := by
  have hnames := names_readingCalls body
  rw [readingCalls, writingCalls, List.cons_append, List.cons_append, List.nil_append,
    List.forall_mem_cons, List.forall_mem_cons, List.forall_mem_singleton] at hnames
  obtain ⟨hcreate, hwrite, hget⟩ := hnames
  have hfound : ((Memory.empty.performAll (writingCalls body)).perform (.get "rules" "a")).1 =
      .ok (some ⟨"a", 1, 0, Memory.primaryTerm, body⟩) := rfl
  have hreply : (Server.perform localEndpoint (Memory.empty.performAll (writingCalls body))
      (.get "rules" "a")).1 = .error (.unexpected "response body is not JSON") :=
    Server.perform_of_deep hget hfound ⟨rfl, rfl, rfl⟩ hdepth hdeep hbody
  rw [readingCalls, writingCalls, List.cons_append, List.cons_append, List.nil_append,
    answeredBy, answeredBy, answeredBy, answeredBy, Server.perform_snd _ hcreate,
    Server.perform_snd _ hwrite]
  change foundSources [⟨.createIndex .., _⟩, ⟨.write .., _⟩, ⟨.get "rules" "a",
    (Server.perform localEndpoint (Memory.empty.performAll (writingCalls body))
      (.get "rules" "a")).1⟩] = []
  rw [hreply]
  rfl

theorem documents_misread :
    (∀ body, ∀ call ∈ readingCalls body, ∀ name ∈ call.names, Addressable name ∧ name ≠ "") ∧
      answeredBy (Server.perform localEndpoint) .empty (readingCalls roundedDocument) ≠
        answeredBy Memory.perform .empty (readingCalls roundedDocument) ∧
      answeredBy (Server.perform localEndpoint) .empty (readingCalls nestedDocument) ≠
        answeredBy Memory.perform .empty (readingCalls nestedDocument) := by
  refine ⟨names_readingCalls, fun heq => ?_, fun heq => ?_⟩
  · have hserver : foundSources
        (answeredBy (Server.perform localEndpoint) .empty (readingCalls roundedDocument)) =
          ["\x7b\"x\":0.9007199254740992\x7d"] := by decide +kernel
    have hmemory : foundSources (answeredBy Memory.perform .empty (readingCalls roundedDocument)) =
        ["\x7b\"x\":0.9007199254740993\x7d"] := by decide +kernel
    rw [heq, hmemory] at hserver
    revert hserver
    decide
  · have hserver := foundSources_of_deep (Nat.le_succ documentDepth)
      (by decide +kernel : nestedDocument.readsBack documentDepth = false) (by decide +kernel)
    have hmemory : (foundSources
        (answeredBy Memory.perform .empty (readingCalls nestedDocument))).length = 1 := rfl
    rw [← heq, hserver] at hmemory
    cases hmemory

end Rest

end SigmaCatalog
