import SigmaCatalog.Proofs.Rest.Replies

/-!
# Changes that are reported

A change counts as done when the status of the response says that the request was carried out and
its text is a payload that reports the change.  Everything else is a failure, and the kind of the
failure is decided by the status first and then by the type of the error that the payload states.
Each answer of a changing call is described here by what the response must report for it.
-/

namespace SigmaCatalog.Rest

/-! ## Answers and failures -/

/-- Whether a response of success has a payload with some property. -/
def Confirms (response : Response) (reported : Json → Prop) : Prop :=
  isSuccess response.status = true ∧
    ∃ payload, Json.parse? response.text = some payload ∧ reported payload

/-- Whether a response states an error of a type. -/
def StatesError (response : Response) (type : String) : Prop :=
  ∃ payload, Json.parse? response.text = some payload ∧ errorText? payload "type" = some type

/-- What a response that does not report an answer is taken for. -/
inductive Refused (index : String) (response : Response) : StoreError → Prop
  | taken (status : isSuccess response.status = false)
    (error : StatesError response "resource_already_exists_exception") :
    Refused index response (.indexExists index)
  | noIndex (status : isSuccess response.status = false)
    (error : StatesError response "index_not_found_exception") :
    Refused index response (.noIndex index)
  | rejected (status : isSuccess response.status = false)
    (taken : ¬StatesError response "resource_already_exists_exception")
    (noIndex : ¬StatesError response "index_not_found_exception") (reason : String) :
    Refused index response (.rejected response.status reason)
  | unexpected (status : isSuccess response.status = true) (detail : String) :
    Refused index response (.unexpected detail)

/-- A result that is a failure, if it is one, because the payload has no meaning. -/
inductive Unexpected {α : Type} : Except StoreError α → Prop
  | ok (value : α) : Unexpected (.ok value)
  | error (detail : String) : Unexpected (.error (.unexpected detail))

theorem Unexpected.bind {α β : Type} {first : Except StoreError α}
    {next : α → Except StoreError β} (hfirst : Unexpected first)
    (hnext : ∀ value, Unexpected (next value)) : Unexpected (first >>= next) := by
  cases hfirst with
  | ok value => exact hnext value
  | error detail => exact .error detail

theorem Unexpected.map {α β : Type} {result : Except StoreError α} (h : Unexpected result)
    (f : α → β) : Unexpected (result.map f) := by
  cases h with
  | ok value => exact .ok (f value)
  | error detail => exact .error detail

section Reading

variable {α : Type} {response : Response} {index : String} {payload : Json} {value : α}
  {cause : StoreError}

theorem statesError_iff (htext : Json.parse? response.text = some payload) {type : String} :
    StatesError response type ↔ errorText? payload "type" = some type := by
  simp [StatesError, htext]

theorem withPayload_eq_ok_iff {following : Json → Reading α} :
    (withPayload response following).1 = .ok value ↔
      ∃ payload, Json.parse? response.text = some payload ∧ (following payload).1 = .ok value := by
  unfold withPayload
  cases Json.parse? response.text with
  | some payload => simp
  | none =>
    dsimp only
    split
    · simp
    · simp

/-- A response whose text is no payload is a failure by its status. -/
theorem refused_of_withPayload {following : Json → Reading α}
    (h : (withPayload response following).1 = .error cause)
    (hfollowing : ∀ payload, Json.parse? response.text = some payload →
      (following payload).1 = .error cause → Refused index response cause) :
    Refused index response cause := by
  unfold withPayload at h
  split at h
  · next payload htext => exact hfollowing payload htext h
  · next htext =>
    have hstates (type : String) : ¬StatesError response type := by
      rintro ⟨payload, hpayload, -⟩
      rw [htext] at hpayload
      cases hpayload
    split at h
    · next hstatus =>
      obtain rfl := Except.error.inj h
      exact .unexpected hstatus _
    · next hstatus =>
      obtain rfl := Except.error.inj h
      exact .rejected (Bool.eq_false_iff.mpr hstatus) (hstates _) (hstates _) _

theorem refusal_eq_error (index : String) (status : Nat) (payload : Json) :
    ∃ cause, (refusal index status payload : Reading α).1 = .error cause := by
  unfold refusal
  split
  · exact ⟨_, rfl⟩
  · exact ⟨_, rfl⟩
  · exact ⟨_, rfl⟩

theorem withSuccess_eq_ok_iff {status : Nat} {result : Except StoreError α} :
    (withSuccess index status payload result).1 = .ok value ↔
      isSuccess status = true ∧ result = .ok value := by
  unfold withSuccess
  split
  · next hstatus => rw [and_iff_right hstatus]
  · next hstatus =>
    obtain ⟨cause, hcause⟩ := refusal_eq_error (α := α) index status payload
    rw [hcause]
    simp [hstatus]

/-- A payload under any other status is the failure that it states. -/
theorem refused_of_withSuccess {result : Except StoreError α}
    (htext : Json.parse? response.text = some payload)
    (h : (withSuccess index response.status payload result).1 = .error cause)
    (hresult : Unexpected result) : Refused index response cause := by
  unfold withSuccess at h
  split at h
  · next hstatus =>
    cases hresult with
    | ok value => cases h
    | error detail =>
      obtain rfl := Except.error.inj h
      exact .unexpected hstatus detail
  · next hstatus =>
    have hfailed : isSuccess response.status = false := Bool.eq_false_iff.mpr hstatus
    unfold refusal at h
    split at h
    · next herror =>
      obtain rfl := Except.error.inj h
      exact .taken hfailed ((statesError_iff htext).mpr herror)
    · next herror =>
      obtain rfl := Except.error.inj h
      exact .noIndex hfailed ((statesError_iff htext).mpr herror)
    · next htaken hnoIndex =>
      obtain rfl := Except.error.inj h
      exact .rejected hfailed (mt (statesError_iff htext).mp htaken)
        (mt (statesError_iff htext).mp hnoIndex) _

end Reading

/-! ## Members of payloads -/

section Members

variable {payload : Json} {name : String}

theorem member?_eq_some_iff {text : String} :
    member? payload name = some text ↔ payload.get? name = some (.string text) := by
  refine ⟨fun h => ?_, member?_of_member⟩
  obtain ⟨value, hvalue, htext⟩ := Option.bind_eq_some_iff.mp h
  cases value with
  | string other =>
    obtain rfl := Option.some.inj htext
    exact hvalue
  | _ => cases htext

theorem flag?_eq_some_iff {flag : Bool} :
    flag? payload name = some flag ↔ payload.get? name = some (.bool flag) := by
  refine ⟨fun h => ?_, flag?_of_member⟩
  obtain ⟨value, hvalue, hflag⟩ := Option.bind_eq_some_iff.mp h
  cases value with
  | bool other =>
    obtain rfl := Option.some.inj hflag
    exact hvalue
  | _ => cases hflag

theorem integer?_eq_some_iff {n : Int} :
    integer? payload name = some n ↔
      payload.get? name = some (.ofInt n) ∧ Json.isInt64 n = true := by
  refine ⟨fun h => ?_, fun h => integer?_of_member h.1 h.2⟩
  obtain ⟨value, hvalue, hn⟩ := Option.bind_eq_some_iff.mp h
  cases value with
  | number number =>
    cases number with
    | integer m =>
      obtain ⟨hfits, heq⟩ : Json.isInt64 m = true ∧ m = n := by
        simpa [Json.int64?] using hn
      subst heq
      exact ⟨hvalue, hfits⟩
    | real x => cases hn
  | _ => cases hn

end Members

/-! ## Reported changes -/

/-- The results by which an effect is reported. -/
def resultsOf : WriteEffect → List String
  | .created => ["created"]
  | .updated => ["updated", "noop"]
  | .deleted => ["deleted"]

/-- Whether a payload reports a change with exactly what an acknowledgement says. -/
structure ReportsChange (payload : Json) (acknowledgement : Acknowledgement) : Prop where
  id : payload.get? "_id" = some (.string acknowledgement.id)
  version : payload.get? "_version" = some (.ofInt acknowledgement.version)
  fits : Json.isInt64 acknowledgement.version = true
  result : ∃ text ∈ resultsOf acknowledgement.status,
    payload.get? "result" = some (.string text)

section Acknowledgements

variable {payload : Json}

theorem idOf_eq_ok_iff {id : String} :
    idOf payload = .ok id ↔ payload.get? "_id" = some (.string id) := by
  rw [← member?_eq_some_iff, idOf]
  cases member? payload "_id" <;> simp

theorem versionOf_eq_ok_iff {version : Int} :
    versionOf payload = .ok version ↔
      payload.get? "_version" = some (.ofInt version) ∧ Json.isInt64 version = true := by
  rw [← integer?_eq_some_iff, versionOf]
  cases integer? payload "_version" <;> simp

theorem statusOf_eq_ok_iff {effect : WriteEffect} :
    statusOf payload = .ok effect ↔
      ∃ text ∈ resultsOf effect, payload.get? "result" = some (.string text) := by
  simp only [← member?_eq_some_iff]
  unfold statusOf
  split <;> cases effect <;> simp_all [resultsOf]

theorem acknowledgementOf_eq_ok_iff {acknowledgement : Acknowledgement} :
    acknowledgementOf payload = .ok acknowledgement ↔ ReportsChange payload acknowledgement := by
  have hparts : acknowledgementOf payload = .ok acknowledgement ↔
      idOf payload = .ok acknowledgement.id ∧ versionOf payload = .ok acknowledgement.version ∧
        statusOf payload = .ok acknowledgement.status := by
    obtain ⟨id, version, status⟩ := acknowledgement
    unfold acknowledgementOf
    cases idOf payload <;> cases versionOf payload <;> cases statusOf payload <;>
      simp [bind, Except.bind, pure, Except.pure]
  rw [hparts, idOf_eq_ok_iff, versionOf_eq_ok_iff, statusOf_eq_ok_iff]
  constructor
  · rintro ⟨hid, ⟨hversion, hfits⟩, hresult⟩
    exact ⟨hid, hversion, hfits, hresult⟩
  · rintro ⟨hid, hversion, hfits, hresult⟩
    exact ⟨hid, ⟨hversion, hfits⟩, hresult⟩

theorem unexpected_acknowledgementOf (payload : Json) : Unexpected (acknowledgementOf payload) := by
  have hid : Unexpected (idOf payload) := by
    unfold idOf
    cases member? payload "_id" with
    | some id => exact .ok id
    | none => exact .error _
  have hversion : Unexpected (versionOf payload) := by
    unfold versionOf
    cases integer? payload "_version" with
    | some version => exact .ok version
    | none => exact .error _
  have hstatus : Unexpected (statusOf payload) := by
    unfold statusOf
    split
    · exact .ok _
    · exact .ok _
    · exact .ok _
    · exact .ok _
    · exact .error _
    · exact .error _
  exact hid.bind fun _ => hversion.bind fun _ => hstatus.bind fun _ => .ok _

end Acknowledgements

/-! ## What is not there -/

section Denials

variable {response : Response} {name : String} {value : Json}

/-- Whether a response says that something was not there. -/
def Denies (response : Response) (name : String) (value : Json) : Prop :=
  response.status = 404 ∧
    ∃ payload, Json.parse? response.text = some payload ∧ payload.get? name = some value

theorem Denies.not_confirms (h : Denies response name value) (reported : Json → Prop) :
    ¬Confirms response reported := by
  rw [Confirms, h.1]
  rintro ⟨hstatus, -⟩
  cases hstatus

/-- Where nothing is denied, the answer to a denial makes no difference. -/
theorem withPayload_of_not_denied {α : Type} {denied : Json → Bool} {answer : Reading α}
    {following : Json → Reading α} (h : ¬Denies response name value)
    (hdenied : ∀ payload, denied payload = true → payload.get? name = some value) :
    (withPayload response fun payload =>
        if response.status = 404 && denied payload then answer else following payload) =
      withPayload response following := by
  rw [withPayload, withPayload]
  cases htext : Json.parse? response.text with
  | none => rfl
  | some payload =>
    refine if_neg fun hboth => ?_
    obtain ⟨hstatus, hmember⟩ := Bool.and_eq_true_iff.mp hboth
    exact h ⟨of_decide_eq_true hstatus, payload, htext, hdenied payload hmember⟩

end Denials

/-! ## Replies to changing calls -/

section Changes

variable {response : Response} {index id : String} {body schema : Json}
  {condition : Option Precondition} {timeout : Nat} {refresh : RefreshPolicy} {cause : StoreError}

/-- A result for the payloads of responses of success is one exactly if it is confirmed. -/
theorem confirms_iff {α : Type} {result : Json → Except StoreError α} {value : α}
    {reported : Json → Prop} (h : ∀ payload, result payload = .ok value ↔ reported payload) :
    (withPayload response fun payload =>
        withSuccess index response.status payload (result payload)).1 = .ok value ↔
      Confirms response reported := by
  simp only [withPayload_eq_ok_iff, withSuccess_eq_ok_iff, h, Confirms]
  constructor
  · rintro ⟨payload, htext, hstatus, hreported⟩
    exact ⟨hstatus, payload, htext, hreported⟩
  · rintro ⟨hstatus, payload, htext, hreported⟩
    exact ⟨payload, htext, hstatus, hreported⟩

/-- And if it is not one, the response is refused. -/
theorem refused_of_error {α : Type} {result : Json → Except StoreError α}
    (hresult : ∀ payload, Unexpected (result payload))
    (h : (withPayload response fun payload =>
      withSuccess index response.status payload (result payload)).1 = .error cause) :
    Refused index response cause :=
  refused_of_withPayload h fun payload htext hcause =>
    refused_of_withSuccess htext hcause (hresult payload)

theorem write_of_conflict (h : response.status = 409) :
    (interpret (.write index id body condition timeout refresh) response).1 =
      .error (.conflict index id) := by
  rw [interpret, if_pos h]

theorem write_of_ne (h : response.status ≠ 409) :
    interpret (.write index id body condition timeout refresh) response =
      withPayload response fun payload =>
        withSuccess index response.status payload (acknowledgementOf payload) := by
  rw [interpret, if_neg h]

/-- A write is acknowledged exactly as a response of success reports it. -/
theorem write_eq_ok_iff {acknowledgement : Acknowledgement} :
    (interpret (.write index id body condition timeout refresh) response).1 =
        .ok acknowledgement ↔
      Confirms response fun payload => ReportsChange payload acknowledgement := by
  by_cases hstatus : response.status = 409
  · rw [write_of_conflict hstatus, Confirms, hstatus]
    simp [isSuccess]
  · rw [write_of_ne hstatus]
    exact confirms_iff fun payload => acknowledgementOf_eq_ok_iff

theorem refused_of_write (hstatus : response.status ≠ 409)
    (h : (interpret (.write index id body condition timeout refresh) response).1 =
      .error cause) : Refused index response cause := by
  rw [write_of_ne hstatus] at h
  exact refused_of_error unexpected_acknowledgementOf h

/-- A write conflicts exactly when the status says so. -/
theorem write_eq_conflict_iff {name other : String} :
    (interpret (.write index id body condition timeout refresh) response).1 =
        .error (.conflict name other) ↔
      response.status = 409 ∧ name = index ∧ other = id := by
  constructor
  · intro h
    by_cases hstatus : response.status = 409
    · rw [write_of_conflict hstatus] at h
      cases h
      exact ⟨hstatus, rfl, rfl⟩
    · cases refused_of_write hstatus h
  · rintro ⟨hstatus, rfl, rfl⟩
    exact write_of_conflict hstatus

theorem delete_of_denied (h : Denies response "result" (.string "not_found")) :
    (interpret (.delete index id refresh) response).1 = .ok none := by
  obtain ⟨hstatus, payload, htext, hresult⟩ := h
  rw [interpret, withPayload_of_text htext, hstatus, member?_of_member hresult]
  rfl

theorem delete_of_not_denied (h : ¬Denies response "result" (.string "not_found")) :
    interpret (.delete index id refresh) response =
      withPayload response fun payload =>
        withSuccess index response.status payload ((acknowledgementOf payload).map some) := by
  rw [interpret]
  refine withPayload_of_not_denied h fun payload hresult => ?_
  exact member?_eq_some_iff.mp (of_decide_eq_true hresult)

theorem map_some_eq_ok_iff {result : Except StoreError Acknowledgement}
    {answer : Option Acknowledgement} :
    result.map some = .ok answer ↔ ∃ acknowledgement ∈ answer, result = .ok acknowledgement := by
  cases result with
  | error cause => simp [Except.map]
  | ok acknowledgement => simp [Except.map, eq_comm]

theorem delete_eq_none_iff :
    (interpret (.delete index id refresh) response).1 = .ok none ↔
      Denies response "result" (.string "not_found") := by
  refine ⟨fun h => ?_, delete_of_denied⟩
  by_contra hnot
  rw [delete_of_not_denied hnot] at h
  have hconfirms : Confirms response fun _ => False :=
    (confirms_iff fun payload => by simp [map_some_eq_ok_iff]).mp h
  obtain ⟨-, -, -, hfalse⟩ := hconfirms
  exact hfalse

/-- A deletion is acknowledged exactly as a response of success reports it. -/
theorem delete_eq_some_iff {acknowledgement : Acknowledgement} :
    (interpret (.delete index id refresh) response).1 = .ok (some acknowledgement) ↔
      Confirms response fun payload => ReportsChange payload acknowledgement := by
  by_cases hdenied : Denies response "result" (.string "not_found")
  · rw [delete_of_denied hdenied]
    exact iff_of_false (by simp) (hdenied.not_confirms _)
  · rw [delete_of_not_denied hdenied]
    refine confirms_iff fun payload => ?_
    rw [map_some_eq_ok_iff, ← acknowledgementOf_eq_ok_iff]
    simp

theorem refused_of_delete
    (h : (interpret (.delete index id refresh) response).1 = .error cause) :
    Refused index response cause := by
  by_cases hdenied : Denies response "result" (.string "not_found")
  · rw [delete_of_denied hdenied] at h
    cases h
  · rw [delete_of_not_denied hdenied] at h
    exact refused_of_error (fun payload => (unexpected_acknowledgementOf payload).map some) h

/-- A creation is acknowledged exactly as a response of success reports it. -/
theorem create_eq_ok_iff {acknowledged : Bool} :
    (interpret (.createIndex index schema) response).1 = .ok acknowledged ↔
      Confirms response fun payload =>
        (acknowledged = true ↔ payload.get? "acknowledged" = some (.bool true)) := by
  refine confirms_iff fun payload => ?_
  rw [← flag?_eq_some_iff, Except.ok.injEq]
  cases acknowledged <;> cases flag? payload "acknowledged" with
  | none => simp
  | some flag => cases flag <;> simp

theorem refused_of_create (h : (interpret (.createIndex index schema) response).1 = .error cause) :
    Refused index response cause :=
  refused_of_error (fun _ => .ok _) h

/-- Nothing counts as done unless the response reports it: writes, deletions and creations are
acknowledged exactly as a response of success says, a write conflicts exactly if the status says so,
nothing was there to delete exactly if the response says so, and any other response is refused. -/
theorem changes_reported (response : Response) (index id : String) (body schema : Json)
    (condition : Option Precondition) (timeout : Nat) (refresh : RefreshPolicy) :
    ((∀ acknowledgement,
        (interpret (.write index id body condition timeout refresh) response).1 =
            .ok acknowledgement ↔
          Confirms response fun payload => ReportsChange payload acknowledgement) ∧
      (∀ name other,
        (interpret (.write index id body condition timeout refresh) response).1 =
            .error (.conflict name other) ↔
          response.status = 409 ∧ name = index ∧ other = id) ∧
      ∀ cause, response.status ≠ 409 →
        (interpret (.write index id body condition timeout refresh) response).1 = .error cause →
          Refused index response cause) ∧
    (((interpret (.delete index id refresh) response).1 = .ok none ↔
        Denies response "result" (.string "not_found")) ∧
      (∀ acknowledgement,
        (interpret (.delete index id refresh) response).1 = .ok (some acknowledgement) ↔
          Confirms response fun payload => ReportsChange payload acknowledgement) ∧
      ∀ cause, (interpret (.delete index id refresh) response).1 = .error cause →
        Refused index response cause) ∧
    (∀ acknowledged, (interpret (.createIndex index schema) response).1 = .ok acknowledged ↔
        Confirms response fun payload =>
          (acknowledged = true ↔ payload.get? "acknowledged" = some (.bool true))) ∧
      ∀ cause, (interpret (.createIndex index schema) response).1 = .error cause →
        Refused index response cause :=
  ⟨⟨fun _ => write_eq_ok_iff, fun _ _ => write_eq_conflict_iff,
      fun _ hstatus h => refused_of_write hstatus h⟩,
    ⟨delete_eq_none_iff, fun _ => delete_eq_some_iff, fun _ h => refused_of_delete h⟩,
    fun _ => create_eq_ok_iff, fun _ h => refused_of_create h⟩

example : (interpret (.write "rules" "r" .null none 1 .none)
    ⟨200, "\x7b\"_id\":\"r\",\"_version\":2,\"result\":\"noop\"\x7d"⟩).1 =
      .ok ⟨"r", 2, .updated⟩ := by
  decide +kernel

end Changes

end SigmaCatalog.Rest
