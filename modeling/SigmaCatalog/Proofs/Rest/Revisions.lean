import SigmaCatalog.Proofs.Rest.Changes
import SigmaCatalog.Proofs.Store.Attempts

/-!
# Reported revisions

A write may depend on what was read just before.  Its condition means something only if the store
has reported what the read returns: that the document is not there, or which revision of it is.  A
response of success may leave this out.  Then the client reads an absence where none was reported,
or the number zero where no number was, and a merge of field mappings makes its write depend on
that.

The main statement says that this happens exactly for such responses, for single reads and for every
write of every merge, whatever a server answers.
-/

namespace SigmaCatalog.Rest

/-! ## What a response reports -/

/-- Whether a response reports what a read returns. -/
inductive ReportsRead (response : Response) : Option StoredDocument → Prop
  | absent {payload : Json} (text : Json.parse? response.text = some payload)
    (found : payload.get? "found" = some (.bool false)) : ReportsRead response none
  | document {payload : Json} {document : StoredDocument}
    (status : isSuccess response.status = true)
    (text : Json.parse? response.text = some payload)
    (found : payload.get? "found" = some (.bool true))
    (id : payload.get? "_id" = some (.string document.id))
    (seqNo : payload.get? "_seq_no" = some (.ofInt document.seqNo))
    (primaryTerm : payload.get? "_primary_term" = some (.ofInt document.primaryTerm)) :
    ReportsRead response (some document)

/-- Whether a response reports that a condition holds. -/
inductive ReportsCondition (response : Response) : Precondition → Prop
  | absent {payload : Json} (text : Json.parse? response.text = some payload)
    (found : payload.get? "found" = some (.bool false)) : ReportsCondition response .absent
  | unchanged {payload : Json} {seqNo primaryTerm : Int}
    (status : isSuccess response.status = true)
    (text : Json.parse? response.text = some payload)
    (found : payload.get? "found" = some (.bool true))
    (hseqNo : payload.get? "_seq_no" = some (.ofInt seqNo))
    (hprimaryTerm : payload.get? "_primary_term" = some (.ofInt primaryTerm)) :
    ReportsCondition response (.unchanged seqNo primaryTerm)

/-- Whether a response of success does not say if a document was found, or says that one was and
leaves out its revision. -/
def IsVague (response : Response) : Prop :=
  Confirms response fun payload =>
    flag? payload "found" = none ∨
      flag? payload "found" = some true ∧ (member? payload "_id").isSome = true ∧
        (integer? payload "_seq_no" = none ∨ integer? payload "_primary_term" = none)

section Reads

variable {response : Response} {index id : String} {payload : Json} {read : Option StoredDocument}

theorem ReportsRead.condition (h : ReportsRead response read) :
    ReportsCondition response (.asRead read) := by
  cases h with
  | absent text found => exact .absent text found
  | document status text found _ seqNo primaryTerm =>
    exact .unchanged status text found seqNo primaryTerm

theorem get_of_denied (h : Denies response "found" (.bool false)) :
    (interpret (.get index id) response).1 = .ok none := by
  obtain ⟨hstatus, payload, htext, hfound⟩ := h
  rw [interpret, withPayload_of_text htext, hstatus, flag?_of_member hfound]
  rfl

theorem get_of_not_denied (h : ¬Denies response "found" (.bool false)) :
    interpret (.get index id) response =
      withPayload response fun payload =>
        withSuccess index response.status payload (documentOf payload) := by
  rw [interpret]
  refine withPayload_of_not_denied h fun payload hfound => ?_
  exact flag?_eq_some_iff.mp (of_decide_eq_true hfound)

/-- A read returns something exactly if the document is denied or a payload under a status of
success is read so. -/
theorem get_eq_ok_iff :
    (interpret (.get index id) response).1 = .ok read ↔
      Denies response "found" (.bool false) ∧ read = none ∨
        Confirms response fun payload => documentOf payload = .ok read := by
  by_cases hdenied : Denies response "found" (.bool false)
  · rw [get_of_denied hdenied]
    simp [hdenied, hdenied.not_confirms, eq_comm]
  · rw [get_of_not_denied hdenied, confirms_iff fun payload => Iff.rfl]
    simp [hdenied]

/-- The document that a payload is read as, once its identifier is known. -/
def readAs (payload : Json) (id : String) : StoredDocument :=
  { id
    version := (integer? payload "_version").getD 1
    seqNo := (integer? payload "_seq_no").getD 0
    primaryTerm := (integer? payload "_primary_term").getD 0
    source := (payload.get? "_source").getD .null }

theorem documentOf_eq_ok_iff :
    documentOf payload = .ok read ↔
      flag? payload "found" ≠ some true ∧ read = none ∨
        flag? payload "found" = some true ∧
          ∃ id, member? payload "_id" = some id ∧ read = some (readAs payload id) := by
  by_cases hfound : flag? payload "found" = some true
  · rw [documentOf, if_pos hfound]
    unfold idOf
    cases member? payload "_id" with
    | none => simp [bind, Except.bind, hfound]
    | some id => simp [bind, Except.bind, pure, Except.pure, hfound, readAs, eq_comm]
  · rw [documentOf, if_neg hfound]
    simp [pure, Except.pure, hfound, eq_comm]

/-- What is read off a response that is not vague is reported. -/
theorem reportsRead_of_not_vague (h : (interpret (.get index id) response).1 = .ok read)
    (hvague : ¬IsVague response) : ReportsRead response read := by
  obtain ⟨⟨-, payload, htext, hfound⟩, rfl⟩ | ⟨hstatus, payload, htext, hread⟩ :=
    get_eq_ok_iff.mp h
  · exact .absent htext hfound
  · have hclear (hlacks : flag? payload "found" = none ∨ flag? payload "found" = some true ∧
        (member? payload "_id").isSome = true ∧
          (integer? payload "_seq_no" = none ∨ integer? payload "_primary_term" = none)) : False :=
      hvague ⟨hstatus, payload, htext, hlacks⟩
    obtain ⟨hnot, rfl⟩ | ⟨hfound, id, hid, rfl⟩ := documentOf_eq_ok_iff.mp hread
    · match hflag : flag? payload "found" with
      | none => exact (hclear (.inl hflag)).elim
      | some true => exact absurd hflag hnot
      | some false => exact .absent htext (flag?_eq_some_iff.mp hflag)
    · have hsome : (member? payload "_id").isSome = true := by
        rw [hid]
        rfl
      cases hseqNo : integer? payload "_seq_no" with
      | none => exact (hclear (.inr ⟨hfound, hsome, .inl hseqNo⟩)).elim
      | some seqNo =>
        cases hprimaryTerm : integer? payload "_primary_term" with
        | none => exact (hclear (.inr ⟨hfound, hsome, .inr hprimaryTerm⟩)).elim
        | some primaryTerm =>
          refine .document hstatus htext (flag?_eq_some_iff.mp hfound)
            (member?_eq_some_iff.mp hid) ?_ ?_
          · rw [(integer?_eq_some_iff.mp hseqNo).1, readAs, hseqNo]
            rfl
          · rw [(integer?_eq_some_iff.mp hprimaryTerm).1, readAs, hprimaryTerm]
            rfl

/-- A number that stands in for one that is missing is not in the payload. -/
theorem integer?_ne_none {name : String}
    (h : payload.get? name = some (.ofInt ((integer? payload name).getD 0))) :
    integer? payload name ≠ none := by
  intro hnone
  rw [hnone] at h
  have hzero : integer? payload name = some 0 := integer?_of_member h (by decide)
  rw [hnone] at hzero
  cases hzero

/-- No condition is reported by a vague response. -/
theorem not_vague_of_reported (h : (interpret (.get index id) response).1 = .ok read)
    (hreported : ReportsCondition response (.asRead read)) : ¬IsVague response := by
  rintro ⟨hstatus, payload, htext, hlacks⟩
  cases read with
  | none =>
    cases hreported with
    | absent text found =>
      obtain rfl := Option.some.inj (htext.symm.trans text)
      rw [flag?_of_member found] at hlacks
      simp at hlacks
  | some document =>
    obtain ⟨-, hnone⟩ | ⟨-, other, hother, hread⟩ := get_eq_ok_iff.mp h
    · cases hnone
    · obtain rfl := Option.some.inj (htext.symm.trans hother)
      obtain ⟨-, hnone⟩ | ⟨-, name, -, hdocument⟩ := documentOf_eq_ok_iff.mp hread
      · cases hnone
      · obtain rfl := Option.some.inj hdocument
        cases hreported with
        | unchanged _ text found hseqNo hprimaryTerm =>
          obtain rfl := Option.some.inj (htext.symm.trans text)
          rw [flag?_of_member found] at hlacks
          obtain hnone | ⟨-, -, hnone | hnone⟩ := hlacks
          · cases hnone
          · exact integer?_ne_none hseqNo hnone
          · exact integer?_ne_none hprimaryTerm hnone

/-- Something is read off a vague response. -/
theorem exists_read_of_vague (h : IsVague response) :
    ∃ read, (interpret (.get index id) response).1 = .ok read := by
  obtain ⟨hstatus, payload, htext, hlacks⟩ := h
  have hread (read : Option StoredDocument) (hread : documentOf payload = .ok read) :
      (interpret (.get index id) response).1 = .ok read :=
    get_eq_ok_iff.mpr (.inr ⟨hstatus, payload, htext, hread⟩)
  obtain hfound | ⟨hfound, hid, -⟩ := hlacks
  · refine ⟨none, hread none (documentOf_eq_ok_iff.mpr (.inl ⟨?_, rfl⟩))⟩
    rw [hfound]
    simp
  · obtain ⟨id, hid⟩ := Option.isSome_iff_exists.mp hid
    exact ⟨_, hread _ (documentOf_eq_ok_iff.mpr (.inr ⟨hfound, id, hid, rfl⟩))⟩

/-- What is read is reported exactly if the response is not vague, and so is the condition that it
is still there. -/
theorem reported_iff (h : (interpret (.get index id) response).1 = .ok read) :
    (ReportsRead response read ↔ ¬IsVague response) ∧
      (ReportsCondition response (.asRead read) ↔ ¬IsVague response) := by
  have hread := reportsRead_of_not_vague h
  have hvague := not_vague_of_reported h
  exact ⟨⟨fun hreported => hvague hreported.condition, hread⟩,
    ⟨hvague, fun hclear => (hread hclear).condition⟩⟩

end Reads

/-! ## Merges by requests -/

section Merges

open Program (Exchange Handler Ran)

/-- Answers store calls by what a server sends back to their requests, one after another; nothing
comes back once there is no response left.  Other actions do not reach the server. -/
def servedBy (others : (action : Action) → Option action.Answer) :
    Handler (List (Option Response))
  | .store call, outcomes => (some (interpretOutcome call outcomes.head?.join).1, outcomes.tail)
  | .storeWithin _ call, outcomes =>
    (some (some (interpretOutcome call outcomes.head?.join).1), outcomes.tail)
  | action, outcomes => (others action, outcomes)

def requestsIn (exchanges : List Exchange) : Nat :=
  (exchanges.filterMap Exchange.call?).length

variable {others : (action : Action) → Option action.Answer} {outcomes : List (Option Response)}
  {index : String} {timeout attempts : Nat} {mapping : FieldMapping}

/-- An action uses up the outcome of a request exactly if it makes one. -/
theorem getElem?_of_servedBy {action : Action} {answer : Option action.Answer}
    {between : List (Option Response)} (h : servedBy others action outcomes = (answer, between))
    (front : List Exchange) :
    between[requestsIn front]? = outcomes[requestsIn (⟨action, answer⟩ :: front)]? := by
  have hbetween : (servedBy others action outcomes).2 = between := by rw [h]
  rw [← hbetween]
  cases action with
  | store | storeWithin => exact List.getElem?_tail
  | _ => rfl

/-- What comes back from a store call is what the outcome of its request means. -/
theorem answer_of_ran {α : Type} {program : Program α} {after : List (Option Response)}
    {result : Option α} {front rest : List Exchange} {call : Call} {answer : Option call.Reply}
    (h : Ran (servedBy others) program outcomes (front ++ ⟨.store call, answer⟩ :: rest) result
      after) :
    answer = some (interpretOutcome call outcomes[requestsIn front]?.join).1 := by
  induction program generalizing outcomes front with
  | done value =>
    have hnil := h.done_cases.1
    simp at hnil
  | act action next ih =>
    obtain ⟨reply, between, later, hreply, hexchanges, hlater⟩ | ⟨hreply, hexchanges, -⟩ :=
      h.act_cases
    · cases front with
      | nil =>
        obtain ⟨hfirst, -⟩ := List.cons.inj hexchanges
        cases hfirst
        rw [requestsIn, List.filterMap_nil, List.length_nil, ← List.head?_eq_getElem?]
        exact (Prod.mk.inj hreply).1.symm
      | cons first front =>
        obtain ⟨rfl, rfl⟩ := List.cons.inj hexchanges
        rw [ih reply hlater, getElem?_of_servedBy hreply]
    · cases front with
      | nil =>
        obtain ⟨hfirst, -⟩ := List.cons.inj hexchanges
        cases hfirst
        cases (Prod.mk.inj hreply).1
      | cons first front =>
        obtain ⟨-, hnil⟩ := List.cons.inj hexchanges
        simp at hnil

/-- A read that returns something is a response. -/
theorem exists_response_of_read {call : Call} {outcome : Option Response} {answer : call.Answer}
    (h : (interpretOutcome call outcome).1 = .ok answer) :
    ∃ response, outcome = some response ∧ (interpret call response).1 = .ok answer := by
  cases outcome with
  | none => cases h
  | some response => exact ⟨response, rfl, h⟩

/-- Each write of a merge is made on the condition that what the response to the read before was
read as is still there. -/
theorem write_of_merge {earlier later : List Exchange} {exchange : Exchange}
    (hsplit : (mergeMapping index timeout mapping attempts).trace (servedBy others) outcomes =
      earlier ++ exchange :: later) (hwrite : exchange.isWrite = true) :
    ∃ front warnings answered read written body answer,
      outcomes[requestsIn front]? = some (some answered) ∧
      earlier = front ++ ⟨.store (.get index mapping.rawField),
        some (interpret (.get index mapping.rawField) answered).1⟩ :: warnings ∧
      (∀ warning ∈ warnings, warning.call? = none) ∧
      (interpret (.get index mapping.rawField) answered).1 = .ok read ∧
      exchange =
        ⟨.store (.write index written body (some (.asRead read)) timeout .none), answer⟩ := by
  have hran := Ran.of_run (servedBy others) (mergeMapping index timeout mapping attempts) outcomes
  obtain ⟨front, existing, warnings, answer, rfl, hwarnings, rfl⟩ :=
    (attempts_of_ran hran).write_cases hsplit hwrite
  rw [hsplit, List.append_assoc, List.cons_append] at hran
  obtain ⟨answered, houtcome, hread⟩ :=
    exists_response_of_read (Option.some.inj (answer_of_ran hran)).symm
  refine ⟨front, warnings, answered, existing, _, _, answer, Option.join_eq_some_iff.mp houtcome,
    ?_, hwarnings, hread, rfl⟩
  rw [hread]
  rfl

end Merges

/-- What is read is reported unless the response is vague, and then alone it may be made up.  So the
condition of a write in a merge is one that the server has reported exactly if its response to the
read before was not vague. -/
theorem revisions_reported (response : Response) (name id : String)
    (others : (action : Action) → Option action.Answer) (outcomes : List (Option Response))
    (index : String) (timeout attempts : Nat) (mapping : FieldMapping) :
    ((∀ read, (interpret (.get name id) response).1 = .ok read → ReportsRead response read) ↔
      ¬IsVague response) ∧
    ∀ earlier exchange later,
      (mergeMapping index timeout mapping attempts).trace (servedBy others) outcomes =
        earlier ++ exchange :: later →
      exchange.isWrite = true →
      ∃ front warnings answered condition written body answer,
        outcomes[requestsIn front]? = some (some answered) ∧
        earlier = front ++ ⟨.store (.get index mapping.rawField),
          some (interpret (.get index mapping.rawField) answered).1⟩ :: warnings ∧
        (∀ warning ∈ warnings, warning.call? = none) ∧
        exchange = ⟨.store (.write index written body (some condition) timeout .none), answer⟩ ∧
        (ReportsCondition answered condition ↔ ¬IsVague answered) := by
  constructor
  · constructor
    · intro hreported hvague
      obtain ⟨read, hread⟩ := exists_read_of_vague hvague
      exact (reported_iff hread).1.mp (hreported read hread) hvague
    · intro hclear read hread
      exact (reported_iff hread).1.mpr hclear
  · intro earlier exchange later hsplit hwrite
    obtain ⟨front, warnings, answered, read, written, body, answer, houtcome, hearlier, hwarnings,
      hread, hexchange⟩ := write_of_merge hsplit hwrite
    exact ⟨front, warnings, answered, .asRead read, written, body, answer, houtcome, hearlier,
      hwarnings, hexchange, (reported_iff hread).2⟩

/-- A response of success without any member. -/
def emptyResponse : Response :=
  ⟨200, "\x7b\x7d"⟩

/-- A response of success with a document, but without its numbers. -/
def unnumberedResponse : Response :=
  ⟨200, "\x7b\"_id\":\"x\",\"found\":true\x7d"⟩

/-- The one is read as an absence, and the other as a revision of zeros. -/
theorem vague_responses_read :
    ((interpret (.get "mappings" "x") emptyResponse).1 = .ok none ∧
      ¬ReportsRead emptyResponse none) ∧
    ∃ document, (interpret (.get "mappings" "x") unnumberedResponse).1 = .ok (some document) ∧
      Precondition.asRead (some document) = .unchanged 0 0 ∧
      ¬ReportsRead unnumberedResponse (some document) := by
  constructor
  · have hmember : (Json.parse? emptyResponse.text).map (flag? · "found") = some none := by
      decide +kernel
    obtain ⟨payload, htext, hfound⟩ := Option.map_eq_some_iff.mp hmember
    have hread : documentOf payload = .ok none :=
      documentOf_eq_ok_iff.mpr (.inl ⟨by simp [hfound], rfl⟩)
    have hok : (interpret (.get "mappings" "x") emptyResponse).1 = .ok none :=
      get_eq_ok_iff.mpr (.inr ⟨rfl, payload, htext, hread⟩)
    have hvague : IsVague emptyResponse := ⟨rfl, payload, htext, .inl hfound⟩
    exact ⟨hok, fun hreported => (reported_iff hok).1.mp hreported hvague⟩
  · have hmembers : (Json.parse? unnumberedResponse.text).map (fun payload =>
        (flag? payload "found", member? payload "_id", integer? payload "_seq_no",
          integer? payload "_primary_term")) = some (some true, some "x", none, none) := by
      decide +kernel
    obtain ⟨payload, htext, hmembers⟩ := Option.map_eq_some_iff.mp hmembers
    simp only [Prod.mk.injEq] at hmembers
    obtain ⟨hfound, hid, hseqNo, hprimaryTerm⟩ := hmembers
    have hread : documentOf payload = .ok (some (readAs payload "x")) :=
      documentOf_eq_ok_iff.mpr (.inr ⟨hfound, "x", hid, rfl⟩)
    have hok : (interpret (.get "mappings" "x") unnumberedResponse).1 =
        .ok (some (readAs payload "x")) :=
      get_eq_ok_iff.mpr (.inr ⟨rfl, payload, htext, hread⟩)
    have hvague : IsVague unnumberedResponse :=
      ⟨rfl, payload, htext, .inr ⟨hfound, by rw [hid]; rfl, .inl hseqNo⟩⟩
    refine ⟨_, hok, ?_, fun hreported => (reported_iff hok).1.mp hreported hvague⟩
    simp [Precondition.asRead, readAs, hseqNo, hprimaryTerm]

end SigmaCatalog.Rest
