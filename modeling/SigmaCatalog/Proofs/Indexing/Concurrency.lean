import SigmaCatalog.Proofs.Indexing.Ledger

/-!
# Concurrent requests

Requests that run at once do not make each other fail.  Each of them comes to its verdict: a request
whose rule compiles is acknowledged, and any other is refused as a preview refuses it.  The requests
for one identifier are given the versions after the one that was there, each of them once, and what
is stored in the end is what the request with the last version has written.
-/

namespace SigmaCatalog

open Program

namespace Indexer

/-! ## Where a request stands -/

/-- Where a request stands, by its verdict: on the way to its write, on the way to its end with the
acknowledgement of its write in hand, or on the way to its refusal. -/
inductive Standing (indexer : Indexer) (memory : Memory) (filings : List Filing) (number : Nat) :
    Option (Except IndexError CompiledRule) →
      Program (Except IndexError Acknowledgement) → Prop
  | unfiled {compiled : CompiledRule} {known : Bool}
    {program : Program (Except IndexError Acknowledgement)}
    (hmaker : number ∉ filings.map Filing.maker)
    (hknown : known = true → (memory.index? indexer.rulesIndex).isSome = true)
    (h : Reaches indexer.rulesIndex (indexer.AtWrite compiled) known program) :
    Standing indexer memory filings number (some (.ok compiled)) program
  | filed {compiled : CompiledRule} {known : Bool}
    {program : Program (Except IndexError Acknowledgement)} {filing : Filing}
    (hfiling : filing ∈ filings) (hmaker : filing.maker = number)
    (hknown : known = true → (memory.index? indexer.rulesIndex).isSome = true)
    (h : Reaches indexer.rulesIndex (Ended (.ok filing.acknowledgement)) known program) :
    Standing indexer memory filings number (some (.ok compiled)) program
  | refused {cause : IndexError} {known : Bool}
    {program : Program (Except IndexError Acknowledgement)}
    (hknown : known = true → (memory.index? indexer.rulesIndex).isSome = true)
    (h : Reaches indexer.rulesIndex (Ended (.error cause)) known program) :
    Standing indexer memory filings number (some (.error cause)) program

section Standing

variable {indexer : Indexer} {memory after : Memory} {filings : List Filing} {number : Nat}
  {verdict : Option (Except IndexError CompiledRule)}
  {program : Program (Except IndexError Acknowledgement)}

/-- Where a request stands does not change when others make entries and the index stays. -/
theorem Standing.mono (h : Standing indexer memory filings number verdict program)
    (hindexed : (memory.index? indexer.rulesIndex).isSome = true →
      (after.index? indexer.rulesIndex).isSome = true)
    {more : List Filing} (hmore : ∀ filing ∈ more, filing.maker ≠ number) :
    Standing indexer after (filings ++ more) number verdict program := by
  cases h with
  | unfiled hmaker hknown h =>
    refine .unfiled ?_ (fun hflag => hindexed (hknown hflag)) h
    rw [List.map_append, List.mem_append, not_or]
    refine ⟨hmaker, fun hmem => ?_⟩
    obtain ⟨filing, hfiling, heq⟩ := List.mem_map.mp hmem
    exact hmore filing hfiling heq
  | filed hfiling hmaker hknown h =>
    exact .filed (List.mem_append_left more hfiling) hmaker (fun hflag => hindexed (hknown hflag)) h
  | refused hknown h => exact .refused (fun hflag => hindexed (hknown hflag)) h

theorem not_isBroken_of_reaches {goal : Bool → Program (Except IndexError Acknowledgement) → Prop}
    {known : Bool} (h : Reaches indexer.rulesIndex goal known program)
    (hgoal : ∀ left, goal known left → ¬left.IsBroken) : ¬program.IsBroken := by
  cases h with
  | goal h => exact hgoal _ h
  | @spare _ action next haction _ =>
    cases action with
    | breakDown => exact haction.elim
    | store | storeWithin | handOver | askAbandoned | notify | askTime => exact id
  | look | create => exact id

theorem Standing.not_isBroken (h : Standing indexer memory filings number verdict program) :
    ¬program.IsBroken := by
  have hended {value : Except IndexError Acknowledgement} {known : Bool}
      (left : Program (Except IndexError Acknowledgement)) (hleft : Ended value known left) :
      ¬left.IsBroken := by
    rw [Ended] at hleft
    rw [hleft]
    exact id
  cases h with
  | unfiled _ _ h =>
    refine not_isBroken_of_reaches h fun left hleft => ?_
    obtain ⟨time, refresh, next, rfl, -⟩ := hleft.write
    exact id
  | filed _ _ _ h => exact not_isBroken_of_reaches h hended
  | refused _ h => exact not_isBroken_of_reaches h hended

theorem ended_of_reaches {value : Except IndexError Acknowledgement}
    {goal : Bool → Program (Except IndexError Acknowledgement) → Prop} {known : Bool}
    (h : Reaches indexer.rulesIndex goal known (.done value)) : goal known (.done value) := by
  cases h with
  | goal h => exact h

/-- A request that has ended has come to its verdict. -/
theorem Standing.result {value : Except IndexError Acknowledgement}
    (h : Standing indexer memory filings number verdict (.done value)) :
    (∃ compiled filing, verdict = some (.ok compiled) ∧ filing ∈ filings ∧
      filing.maker = number ∧ value = .ok filing.acknowledgement) ∨
    ∃ cause, verdict = some (.error cause) ∧ value = .error cause := by
  cases h with
  | unfiled _ _ h =>
    obtain ⟨time, refresh, next, habsurd, -⟩ := (ended_of_reaches h).write
    cases habsurd
  | @filed compiled known _ filing hfiling hmaker _ h =>
    have hended := Program.done.inj (ended_of_reaches h)
    exact .inl ⟨compiled, filing, rfl, hfiling, hmaker, hended⟩
  | @refused cause known _ _ h =>
    have hended := Program.done.inj (ended_of_reaches h)
    exact .inr ⟨cause, rfl, hended⟩

end Standing

/-! ## The invariant -/

/-- What holds of concurrent requests at any time. -/
structure Accounting (indexer : Indexer) (initial : Memory) (requests : List IndexRequest)
    (fleet : Fleet (Except IndexError Acknowledgement)) : Prop where
  books : ∀ id, Books indexer.rulesIndex initial fleet.memory (fleet.filings indexer.rulesIndex) id
  own : ∀ filing ∈ fleet.filings indexer.rulesIndex, ∃ request compiled time,
    requests[filing.maker]? = some request ∧
    indexer.tools.verdict request = some (.ok compiled) ∧ filing.id = compiled.id ∧
    filing.acknowledgement.id = compiled.id ∧ filing.body = compiled.document time
  once : ((fleet.filings indexer.rulesIndex).map Filing.maker).Nodup
  size : fleet.programs.length = requests.length
  standing : ∀ number request program, requests[number]? = some request →
    fleet.programs[number]? = some program →
      Standing indexer fleet.memory (fleet.filings indexer.rulesIndex) number
        (indexer.tools.verdict request) program

/-- Requests that are about to begin. -/
def fleet (indexer : Indexer) (memory : Memory) (requests : List IndexRequest) :
    Fleet (Except IndexError Acknowledgement) :=
  { memory, programs := requests.map indexer.indexRule }

namespace Accounting

variable {indexer : Indexer} {initial : Memory} {requests : List IndexRequest}
  {fleet after : Fleet (Except IndexError Acknowledgement)}

theorem begin (hkeeper : indexer.keeper.index? ≠ some indexer.rulesIndex)
    (hverdict : ∀ request, ∃ result, indexer.tools.verdict request = some result) :
    Accounting indexer initial requests (indexer.fleet initial requests) where
  books id := Books.begin _ initial id
  own filing hfiling := by cases hfiling
  once := List.nodup_nil
  size := List.length_map _
  standing number request program hrequest hprogram := by
    have hmapped : (requests.map indexer.indexRule)[number]? = some program := hprogram
    rw [List.getElem?_map, hrequest] at hmapped
    obtain rfl := Option.some.inj hmapped
    obtain ⟨result, hresult⟩ := hverdict request
    rw [hresult]
    cases result with
    | ok compiled =>
      exact .unfiled List.not_mem_nil (fun habsurd => by cases habsurd)
        (reaches_write hkeeper hresult)
    | error cause => exact .refused (fun habsurd => by cases habsurd) (reaches_refusal hresult)

theorem exists_request (h : Accounting indexer initial requests fleet) {number : Nat}
    {program : Program (Except IndexError Acknowledgement)}
    (hprogram : fleet.programs[number]? = some program) :
    ∃ request, requests[number]? = some request := by
  have hlt := (List.getElem?_eq_some_iff.mp hprogram).1
  exact ⟨_, List.getElem?_eq_getElem (Nat.lt_of_lt_of_eq hlt h.size)⟩

/-- A turn that leaves the index of rules alone. -/
theorem spare (h : Accounting indexer initial requests fleet)
    (hspared : fleet.Spared indexer.rulesIndex after) {number : Nat} {request : IndexRequest}
    (hrequest : requests[number]? = some request)
    {left : Program (Except IndexError Acknowledgement)}
    (hprograms : after.programs = fleet.programs.set number left)
    (hstanding : Standing indexer after.memory (fleet.filings indexer.rulesIndex) number
      (indexer.tools.verdict request) left) :
    Accounting indexer initial requests after := by
  have hfilings := hspared.filings_eq
  constructor
  · intro id
    rw [hfilings]
    exact (h.books id).congr (hspared.documents id)
  · rw [hfilings]
    exact h.own
  · rw [hfilings]
    exact h.once
  · rw [hprograms, List.length_set]
    exact h.size
  · intro other otherRequest program hother hprogram
    rw [hfilings]
    rw [hprograms] at hprogram
    obtain ⟨rfl, rfl⟩ | ⟨-, hprogram⟩ := Merging.getElem?_moved hprogram
    · obtain rfl := Option.some.inj (hrequest.symm.trans hother)
      exact hstanding
    · have hkept := h.standing other otherRequest program hother hprogram
      have hnone : ∀ filing ∈ ([] : List Filing), filing.maker ≠ other := List.forall_mem_nil _
      have hmono := hkept.mono hspared.indexed hnone
      rwa [List.append_nil] at hmono

/-- The write of a rule takes place and makes one entry. -/
theorem file (h : Accounting indexer initial requests fleet) (hinitial : initial.Versioned)
    {number : Nat} {request : IndexRequest} (hrequest : requests[number]? = some request)
    {compiled : CompiledRule} (hverdict : indexer.tools.verdict request = some (.ok compiled))
    (hmaker : number ∉ (fleet.filings indexer.rulesIndex).map Filing.maker)
    (hindexed : (fleet.memory.index? indexer.rulesIndex).isSome = true)
    {time : String} {refresh : RefreshPolicy}
    {next : Option (Except StoreError Acknowledgement) →
      Program (Except IndexError Acknowledgement)}
    (hnext : ∀ acknowledgement, Reaches indexer.rulesIndex (Ended (.ok acknowledgement)) true
      (next (some (.ok acknowledgement))))
    (hprogram : fleet.programs[number]? = some (.act (.storeWithin indexer.writeTimeout
      (.write indexer.rulesIndex compiled.id (compiled.document time) none indexer.writeTimeout
        refresh)) next)) (turnTime : String) :
    Accounting indexer initial requests (fleet.take turnTime (.advance number)) := by
  obtain ⟨found, hfound⟩ := Option.isSome_iff_exists.mp hindexed
  let filing : Filing :=
    { maker := number, id := compiled.id, body := compiled.document time
      acknowledgement := found.acknowledge compiled.id }
  have hperform : fleet.memory.perform (.write indexer.rulesIndex compiled.id
      (compiled.document time) none indexer.writeTimeout refresh) =
      (.ok (found.acknowledge compiled.id),
        fleet.memory.setIndex indexer.rulesIndex (found.put filing.id filing.body)) := by
    rw [Memory.perform_write_of_index compiled.id hfound]
    rfl
  have htake := Fleet.take_storeWithin hprogram turnTime
  rw [hperform] at htake
  have hfilings : (fleet.take turnTime (.advance number)).filings indexer.rulesIndex =
      fleet.filings indexer.rulesIndex ++ [filing] := by
    rw [htake, Fleet.filings, List.filterMap_append, ← Fleet.filings]
    congr 1
    simp [Fleet.Record.filingIn?, filing]
  have hindexed' : ((fleet.take turnTime (.advance number)).memory.index?
      indexer.rulesIndex).isSome = true := by
    rw [htake]
    exact Memory.isSome_index?_setIndex _ _ _
  constructor
  · intro id
    rw [hfilings, htake]
    exact (h.books id).file hinitial hfound rfl
  · rw [hfilings]
    intro entry hentry
    rcases List.mem_append.mp hentry with hearlier | hlast
    · exact h.own entry hearlier
    · obtain rfl := List.mem_singleton.mp hlast
      refine ⟨request, compiled, time, hrequest, hverdict, rfl, ?_, rfl⟩
      exact Memory.Index.id_acknowledge found compiled.id
  · rw [hfilings, List.map_append]
    refine List.nodup_append.mpr ⟨h.once, List.nodup_singleton _, ?_⟩
    intro earlier hearlier last hlast heq
    obtain rfl := List.mem_singleton.mp hlast
    exact hmaker (heq ▸ hearlier)
  · rw [htake, List.length_set]
    exact h.size
  · intro other otherRequest program hother hleft
    rw [hfilings]
    have hmoved : (fleet.programs.set number (next (some (.ok (found.acknowledge compiled.id)))))[
        other]? = some program := by
      rw [htake] at hleft
      exact hleft
    obtain ⟨rfl, rfl⟩ | ⟨hne, hunmoved⟩ := Merging.getElem?_moved hmoved
    · obtain rfl := Option.some.inj (hrequest.symm.trans hother)
      rw [hverdict]
      have hmem : filing ∈ fleet.filings indexer.rulesIndex ++ [filing] :=
        List.mem_append_right _ (List.mem_singleton_self filing)
      exact .filed hmem rfl (fun _ => hindexed') (hnext filing.acknowledgement)
    · have hkept := h.standing other otherRequest program hother hunmoved
      exact hkept.mono (fun _ => hindexed')
        (List.forall_mem_singleton.mpr fun heq : number = other => hne heq.symm)

/-- Whatever request acts next, the invariant is kept. -/
theorem advance (h : Accounting indexer initial requests fleet) (hinitial : initial.Versioned)
    (time : String) (number : Nat) :
    Accounting indexer initial requests (fleet.take time (.advance number)) := by
  cases hprogram : fleet.programs[number]? with
  | none =>
    rw [Fleet.take_none hprogram]
    exact h
  | some program =>
    obtain ⟨request, hrequest⟩ := h.exists_request hprogram
    have hstanding := h.standing number request program hrequest hprogram
    generalize hverdict : indexer.tools.verdict request = verdict at hstanding
    -- A program that has come to its goal is at its write or has ended.
    have hdone {value : Except IndexError Acknowledgement} {known : Bool}
        (hended : Ended value known program) :
        Accounting indexer initial requests (fleet.take time (.advance number)) := by
      rw [hended] at hprogram
      rw [Fleet.take_done hprogram]
      exact h
    cases hstanding with
    | unfiled hmaker hknown hreaches =>
      obtain hwrite | ⟨hspared, later, left, hprograms, hleft, hlater⟩ :=
        hreaches.take hprogram hknown time
      · obtain ⟨hflag, writeTime, refresh, next, rfl, hnext⟩ := hwrite
        exact h.file hinitial hrequest hverdict hmaker (hknown hflag) hnext hprogram time
      · refine h.spare hspared hrequest hprograms ?_
        rw [hverdict]
        exact .unfiled hmaker hlater hleft
    | filed hfiling hmaker hknown hreaches =>
      obtain hended | ⟨hspared, later, left, hprograms, hleft, hlater⟩ :=
        hreaches.take hprogram hknown time
      · exact hdone hended
      · refine h.spare hspared hrequest hprograms ?_
        rw [hverdict]
        exact .filed hfiling hmaker hlater hleft
    | refused hknown hreaches =>
      obtain hended | ⟨hspared, later, left, hprograms, hleft, hlater⟩ :=
        hreaches.take hprogram hknown time
      · exact hdone hended
      · refine h.spare hspared hrequest hprograms ?_
        rw [hverdict]
        exact .refused hlater hleft

theorem takeEach (h : Accounting indexer initial requests fleet) (hinitial : initial.Versioned)
    (turns : List (String × Nat)) :
    Accounting indexer initial requests (fleet.takeEach turns) := by
  induction turns generalizing fleet with
  | nil => exact h
  | cons turn turns ih => exact ih (h.advance hinitial turn.1 turn.2)

/-! ## What requests have come to -/

/-- The entry of a request that has ended with an acknowledgement. -/
theorem result_of_filing (h : Accounting indexer initial requests fleet) {filing : Filing}
    (hfiling : filing ∈ fleet.filings indexer.rulesIndex)
    {value : Except IndexError Acknowledgement} (hvalue : fleet.result? filing.maker = some value) :
    value = .ok filing.acknowledgement := by
  obtain ⟨request, compiled, time, hrequest, hverdict, -⟩ := h.own filing hfiling
  have hprogram := Fleet.result?_eq_some_iff.mp hvalue
  have hstanding := h.standing filing.maker request _ hrequest hprogram
  obtain ⟨_, entry, -, hentry, hmaker, rfl⟩ | ⟨cause, hcause, -⟩ := hstanding.result
  · rw [List.inj_on_of_nodup_map h.once hentry hfiling hmaker]
  · rw [hverdict] at hcause
    cases hcause

end Accounting

end Indexer

/-! ## Requests and what comes of them -/

namespace Submission

variable {tools : Toolchain} {submission : Submission}

/-- Whether a rule compiles and has an identifier. -/
def resolvesTo (tools : Toolchain) (id : String) (submission : Submission) : Bool :=
  match submission.preview tools with
  | some (.ok compiled) => compiled.id = id
  | _ => false

/-- A request ends as a preview has it: with the acknowledgement of its rule if the rule compiles,
and otherwise with the same error. -/
inductive Foretells (tools : Toolchain) (submission : Submission) :
    Except IndexError Acknowledgement → Prop
  | indexed {compiled : CompiledRule} {acknowledgement : Acknowledgement}
    (hpreview : submission.preview tools = some (.ok compiled))
    (hid : acknowledgement.id = compiled.id) : Foretells tools submission (.ok acknowledgement)
  | refused {cause : IndexError} (hpreview : submission.preview tools = some (.error cause)) :
    Foretells tools submission (.error cause)

theorem resolvesTo_iff {id : String} :
    submission.resolvesTo tools id = true ↔
      ∃ compiled, submission.preview tools = some (.ok compiled) ∧ compiled.id = id := by
  unfold resolvesTo
  constructor
  · intro h
    split at h
    · next compiled hpreview => exact ⟨compiled, hpreview, of_decide_eq_true h⟩
    · cases h
  · rintro ⟨compiled, hpreview, hid⟩
    rw [hpreview]
    exact decide_eq_true hid

end Submission

/-- The numbers of the submissions for one rule. -/
def numbersOf (tools : Toolchain) (id : String) (submissions : List Submission) : List Nat :=
  submissions.findIdxs (Submission.resolvesTo tools id)

theorem mem_numbersOf {tools : Toolchain} {id : String} {submissions : List Submission}
    {number : Nat} :
    number ∈ numbersOf tools id submissions ↔ ∃ submission compiled,
      submissions[number]? = some submission ∧
      submission.preview tools = some (.ok compiled) ∧ compiled.id = id := by
  rw [numbersOf, List.mem_findIdxs_iff_exists_getElem_pos]
  constructor
  · rintro ⟨hlt, hresolves⟩
    obtain ⟨compiled, hpreview, hid⟩ := Submission.resolvesTo_iff.mp hresolves
    exact ⟨submissions[number], compiled, List.getElem?_eq_getElem hlt, hpreview, hid⟩
  · rintro ⟨submission, compiled, hsubmission, hpreview, hid⟩
    obtain ⟨hlt, rfl⟩ := List.getElem?_eq_some_iff.mp hsubmission
    exact ⟨hlt, Submission.resolvesTo_iff.mpr ⟨compiled, hpreview, hid⟩⟩

/-- What has come of the requests for one rule once all requests have ended.  They were given the
versions after the one that was there, each of them once; what is stored is the document that the
one with the last version has written. -/
structure Accounted (indexer : Indexer) (initial : Memory) (submissions : List Submission)
    (fleet : Fleet (Except IndexError Acknowledgement)) (id : String) : Prop where
  responses : ((numbersOf indexer.tools id submissions).map fleet.result?).Perm
    ((List.range (numbersOf indexer.tools id submissions).length).map fun position : Nat =>
      some (.ok (stamp id (initial.version indexer.rulesIndex id + 1 + position))))
  latest : ∀ number ∈ numbersOf indexer.tools id submissions,
    fleet.result? number = some (.ok (stamp id (initial.version indexer.rulesIndex id +
      (numbersOf indexer.tools id submissions).length))) →
    ∃ submission compiled time document filing, submissions[number]? = some submission ∧
      submission.preview indexer.tools = some (.ok compiled) ∧
      fleet.memory.document? indexer.rulesIndex id = some document ∧
      document.version = initial.version indexer.rulesIndex id +
        (numbersOf indexer.tools id submissions).length ∧
      document.source = compiled.document time ∧
      filing ∈ fleet.filings indexer.rulesIndex ∧ filing.maker = number ∧ filing.id = id ∧
      filing.body = document.source
  untouched : numbersOf indexer.tools id submissions = [] →
    fleet.memory.document? indexer.rulesIndex id = initial.document? indexer.rulesIndex id

namespace Indexer.Accounting

variable {indexer : Indexer} {initial : Memory} {submissions : List Submission}
  {fleet : Fleet (Except IndexError Acknowledgement)}

/-- Where the request of a submission stands. -/
theorem standing_of_submission
    (h : Accounting indexer initial (submissions.map Submission.request) fleet) {number : Nat}
    {submission : Submission} (hsubmission : submissions[number]? = some submission)
    {value : Except IndexError Acknowledgement} (hvalue : fleet.result? number = some value) :
    Standing indexer fleet.memory (fleet.filings indexer.rulesIndex) number
      (submission.preview indexer.tools) (.done value) := by
  rw [← submission.verdict_request]
  apply h.standing number submission.request
  · rw [List.getElem?_map, hsubmission, Option.map_some]
  · exact Fleet.result?_eq_some_iff.mp hvalue

/-- Whose rule an entry is about. -/
theorem own_of_submission
    (h : Accounting indexer initial (submissions.map Submission.request) fleet) {filing : Filing}
    (hfiling : filing ∈ fleet.filings indexer.rulesIndex) :
    ∃ submission compiled time, submissions[filing.maker]? = some submission ∧
      submission.preview indexer.tools = some (.ok compiled) ∧ filing.id = compiled.id ∧
      filing.acknowledgement.id = compiled.id ∧ filing.body = compiled.document time := by
  obtain ⟨request, compiled, time, hrequest, hverdict, hrest⟩ := h.own filing hfiling
  rw [List.getElem?_map] at hrequest
  obtain ⟨submission, hsubmission, rfl⟩ := Option.map_eq_some_iff.mp hrequest
  rw [submission.verdict_request] at hverdict
  exact ⟨submission, compiled, time, hsubmission, hverdict, hrest⟩

/-- A request that has ended has ended as foretold. -/
theorem foretells (h : Accounting indexer initial (submissions.map Submission.request) fleet)
    {number : Nat} {submission : Submission} (hsubmission : submissions[number]? = some submission)
    {value : Except IndexError Acknowledgement} (hvalue : fleet.result? number = some value) :
    submission.Foretells indexer.tools value := by
  obtain ⟨compiled, filing, hpreview, hfiling, hmaker, rfl⟩ | ⟨cause, hpreview, rfl⟩ :=
    (h.standing_of_submission hsubmission hvalue).result
  · obtain ⟨owner, owned, time, howner, howned, -, hid, -⟩ := h.own_of_submission hfiling
    rw [hmaker, hsubmission] at howner
    obtain rfl := Option.some.inj howner
    exact .indexed howned hid
  · exact .refused hpreview

/-- Once all requests have ended, those for a rule are the ones that have written its document. -/
theorem makers_perm (h : Accounting indexer initial (submissions.map Submission.request) fleet)
    (hended : ∀ number < submissions.length, (fleet.result? number).isSome = true) (id : String) :
    ((filingsOf id (fleet.filings indexer.rulesIndex)).map Filing.maker).Perm
      (numbersOf indexer.tools id submissions) := by
  have hnodup : ((filingsOf id (fleet.filings indexer.rulesIndex)).map Filing.maker).Nodup :=
    h.once.sublist (List.filter_sublist.map Filing.maker)
  have hnumbers : (numbersOf indexer.tools id submissions).Nodup := List.nodup_findIdxs
  refine (List.perm_ext_iff_of_nodup hnodup hnumbers).mpr fun number => ?_
  rw [mem_numbersOf, List.mem_map]
  constructor
  · rintro ⟨filing, hmem, rfl⟩
    obtain ⟨hfiling, hid⟩ := List.mem_filter.mp hmem
    obtain ⟨submission, compiled, time, hsubmission, hpreview, howned, -⟩ :=
      h.own_of_submission hfiling
    exact ⟨submission, compiled, hsubmission, hpreview, howned ▸ of_decide_eq_true hid⟩
  · rintro ⟨submission, compiled, hsubmission, hpreview, rfl⟩
    have hlt := (List.getElem?_eq_some_iff.mp hsubmission).1
    obtain ⟨value, hvalue⟩ := Option.isSome_iff_exists.mp (hended number hlt)
    obtain ⟨_, filing, -, hfiling, hmaker, -⟩ | ⟨cause, habsurd, -⟩ :=
      (h.standing_of_submission hsubmission hvalue).result
    · obtain ⟨owner, owned, time, howner, howned, hid, -⟩ := h.own_of_submission hfiling
      rw [hmaker, hsubmission] at howner
      obtain rfl := Option.some.inj howner
      obtain rfl := Except.ok.inj (Option.some.inj (hpreview.symm.trans howned))
      exact ⟨filing, List.mem_filter.mpr ⟨hfiling, decide_eq_true hid⟩, hmaker⟩
    · rw [hpreview] at habsurd
      cases habsurd

/-- Once all requests have ended, the requests for every rule are accounted for. -/
theorem accounted (h : Accounting indexer initial (submissions.map Submission.request) fleet)
    (hended : ∀ number < submissions.length, (fleet.result? number).isSome = true) (id : String) :
    Accounted indexer initial submissions fleet id := by
  have hmakers := h.makers_perm hended id
  have hbooks := h.books id
  have hcount : (filingsOf id (fleet.filings indexer.rulesIndex)).length =
      (numbersOf indexer.tools id submissions).length := by
    rw [← hmakers.length_eq, List.length_map]
  -- The result of a request for the rule is the acknowledgement of its entry.
  have hresult (filing : Filing)
      (hfiling : filing ∈ filingsOf id (fleet.filings indexer.rulesIndex)) :
      fleet.result? filing.maker = some (.ok filing.acknowledgement) := by
    have hmem : filing ∈ fleet.filings indexer.rulesIndex := List.mem_of_mem_filter hfiling
    obtain ⟨submission, compiled, time, hsubmission, -⟩ := h.own_of_submission hmem
    have hlt := (List.getElem?_eq_some_iff.mp hsubmission).1
    obtain ⟨value, hvalue⟩ := Option.isSome_iff_exists.mp (hended filing.maker hlt)
    rw [hvalue, h.result_of_filing hmem hvalue]
  constructor
  · have hstamps := congrArg (List.map fun acknowledgement =>
      some (Except.ok acknowledgement : Except IndexError Acknowledgement)) hbooks.stamps
    rw [List.map_map, List.map_map, hcount] at hstamps
    have hresponses := (List.map_congr_left hresult).trans hstamps
    have hperm := (hmakers.map fleet.result?).symm
    rw [List.map_map] at hperm
    exact hresponses ▸ hperm
  · intro number hnumber hlast
    obtain ⟨filing, hfiling, rfl⟩ := List.mem_map.mp (hmakers.mem_iff.mpr hnumber)
    have hmem : filing ∈ fleet.filings indexer.rulesIndex := List.mem_of_mem_filter hfiling
    rw [hresult filing hfiling, ← hcount] at hlast
    have hlatest := hbooks.last_of_stamp hfiling (Except.ok.inj (Option.some.inj hlast))
    obtain ⟨document, hdocument, hversion, hsource⟩ := hbooks.latest filing hlatest
    obtain ⟨submission, compiled, time, hsubmission, hpreview, -, -, hbody⟩ :=
      h.own_of_submission hmem
    refine ⟨submission, compiled, time, document, filing, hsubmission, hpreview, hdocument, ?_,
      hsource.trans hbody, hmem, rfl, ?_, hsource.symm⟩
    · rw [hversion, hbooks.version, hcount]
    · exact of_decide_eq_true (List.mem_filter.mp hfiling).2
  · intro hnone
    apply hbooks.unwritten
    rw [hnone] at hcount
    exact List.eq_nil_of_length_eq_zero hcount

end Indexer.Accounting

/-- Concurrent requests do not make each other fail, and versions account for every write.  Requests
run at once, over a store in any state that calls can bring about.  However they take turns, they
all come to an end if each has turns again and again; whichever has ended has ended as a preview
foretells; and when all have ended, the requests for every rule are accounted for. -/
theorem Indexer.concurrent_requests_accounted (indexer : Indexer)
    (htools : indexer.tools = .standard) {mappingsIndex schema : String} {timeout : Nat}
    (hkeeper : indexer.keeper = .index mappingsIndex schema timeout)
    (hindices : indexer.rulesIndex ≠ mappingsIndex) (calls : List Call)
    (submissions : List Submission) :
    let initial := Memory.empty.performAll calls
    let fleet := indexer.fleet initial (submissions.map Submission.request)
    (∀ schedule, (∀ number < submissions.length, Fleet.Recurs schedule number) →
      ∃ count, ∀ number < submissions.length,
        ((fleet.after schedule count).result? number).isSome = true) ∧
    ∀ turns,
      (∀ (number : Nat) submission result, submissions[number]? = some submission →
        (fleet.takeEach turns).result? number = some result →
          submission.Foretells indexer.tools result) ∧
      ((∀ number < submissions.length, ((fleet.takeEach turns).result? number).isSome = true) →
        ∀ id, Accounted indexer initial submissions (fleet.takeEach turns) id) := by
  intro initial fleet
  have hother : indexer.keeper.index? ≠ some indexer.rulesIndex := by
    rw [hkeeper]
    exact fun heq => hindices (Option.some.inj heq).symm
  have hverdict (request : IndexRequest) :
      ∃ result, indexer.tools.verdict request = some result := by
    rw [htools]
    exact Toolchain.exists_verdict request
  have hinitial : initial.Versioned := Memory.versioned_empty.performAll calls
  have haccounting (turns : List (String × Nat)) :
      Accounting indexer initial (submissions.map Submission.request) (fleet.takeEach turns) :=
    (Accounting.begin hother hverdict).takeEach hinitial turns
  constructor
  · intro schedule hrecurs
    refine Fleet.all_end (fun count => ?_) hrecurs (fun count number left hleft => ?_)
    · exact (haccounting ((List.range count).map schedule)).size.trans (List.length_map _)
    · have hnow := haccounting ((List.range count).map schedule)
      obtain ⟨request, hrequest⟩ := hnow.exists_request hleft
      exact (hnow.standing number request left hrequest hleft).not_isBroken
  · intro turns
    constructor
    · intro number submission result hsubmission hresult
      exact (haccounting turns).foretells hsubmission hresult
    · intro hended id
      exact (haccounting turns).accounted hended id

/-- A rule with an identifier of its own. -/
def dnsRule : String :=
  "title: t\nid: 6f8d1b52-3c4e-4a6b-9d0f-2e1c7a5b8d34\n" ++
    "detection:\n  sel:\n    a: 1\n  condition: sel\n"

/-- A store with an earlier version of the rule. -/
def earlierCalls : List Call :=
  [.createIndex "rules" IndexSchema.rules,
    .write "rules" "6f8d1b52-3c4e-4a6b-9d0f-2e1c7a5b8d34" .null none 30 .none]

/-- The same rule for two categories, and once without a category. -/
def twinSubmissions : List Submission :=
  [⟨dnsRule, "dns", false, .none⟩, ⟨dnsRule, " ", false, .none⟩, ⟨dnsRule, "process", false, .none⟩]

/-- The requests for the rule take turns, action by action. -/
def alternateTurns : List (String × Nat) :=
  (List.replicate 24 [("now", 0), ("now", 2), ("now", 1)]).flatten

theorem Indexer.concurrent_requests_accounted_twins :
    let initial := Memory.empty.performAll earlierCalls
    let fleet := (Indexer.keeping.fleet initial (twinSubmissions.map Submission.request)).takeEach
      alternateTurns
    (Indexer.keeping.tools = .standard ∧ Indexer.keeping.keeper = .index "mappings" "ecs" 30 ∧
      Indexer.keeping.rulesIndex ≠ "mappings" ∧
      ∀ number < twinSubmissions.length, (fleet.result? number).isSome = true) ∧
    numbersOf .standard "6f8d1b52-3c4e-4a6b-9d0f-2e1c7a5b8d34" twinSubmissions = [0, 2] ∧
    initial.version "rules" "6f8d1b52-3c4e-4a6b-9d0f-2e1c7a5b8d34" = 1 ∧
    Accounted Indexer.keeping initial twinSubmissions fleet
      "6f8d1b52-3c4e-4a6b-9d0f-2e1c7a5b8d34" := by
  intro initial fleet
  have hended : ∀ number < twinSubmissions.length, (fleet.result? number).isSome = true := by
    decide +kernel
  have hnumbers : numbersOf .standard "6f8d1b52-3c4e-4a6b-9d0f-2e1c7a5b8d34" twinSubmissions =
      [0, 2] := by
    decide +kernel
  have hversion : initial.version "rules" "6f8d1b52-3c4e-4a6b-9d0f-2e1c7a5b8d34" = 1 := by
    decide +kernel
  have hindices : Indexer.keeping.rulesIndex ≠ "mappings" := by
    decide
  obtain ⟨-, hturns⟩ := Indexer.keeping.concurrent_requests_accounted rfl rfl hindices earlierCalls
    twinSubmissions
  exact ⟨⟨rfl, rfl, hindices, hended⟩, hnumbers, hversion, (hturns alternateTurns).2 hended _⟩

end SigmaCatalog
