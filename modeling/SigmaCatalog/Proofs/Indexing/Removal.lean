import SigmaCatalog.Proofs.Indexing.Concurrency
import SigmaCatalog.Proofs.Indexing.Serving

/-!
# Removing rules

A request to remove a rule removes the document under its identifier, or it changes nothing at all.
The report bears the identifier of the request because every document of a store is filed under its
own.  A rule that was indexed is there in the end, whatever the keeper of field mappings has done
after the write; so it can be removed, once, and indexing it again begins its versions anew.
-/

namespace SigmaCatalog

open Program

/-! ## Documents under their identifiers -/

namespace Memory

/-- Whether every document of a store bears the identifier under which it is found. -/
def Filed (memory : Memory) : Prop :=
  ∀ index id document, memory.document? index id = some document → document.id = id

/-- Between two states of a store a document of an index has been removed, and nothing else has
changed. -/
structure Removes (index id : String) (before after : Memory) : Prop where
  gone : after.document? index id = none
  others : ∀ name other, (name, other) ≠ (index, id) →
    after.document? name other = before.document? name other
  numbering : ∀ name, (after.index? name).map Index.nextSeqNo =
    (before.index? name).map Index.nextSeqNo
  schemas : ∀ name, (after.index? name).map Index.schema = (before.index? name).map Index.schema
  elsewhere : ∀ name, name ≠ index → after.index? name = before.index? name

variable {memory after : Memory} {name id : String}

theorem filed_empty : empty.Filed := by
  intro index id document hdocument
  cases hdocument

theorem Filed.step {call : Call} {reply : call.Reply} (h : memory.Filed)
    (heffect : memory.Effect call reply after) : after.Filed := by
  intro index id document hdocument
  obtain hold | ⟨_, _, _, _, _, _, _, rfl⟩ := heffect.document_cases hdocument
  · exact h index id document hold
  · rfl

theorem Filed.performAll (h : memory.Filed) (calls : List Call) :
    (memory.performAll calls).Filed := by
  induction calls generalizing memory with
  | nil => exact h
  | cons call calls ih => exact ih (h.step (memory.effect call))

theorem perform_delete_of_none (h : memory.index? name = none) (refresh : RefreshPolicy) :
    memory.perform (.delete name id refresh) = (.error (.noIndex name), memory) := by
  rw [perform, withIndex, h]

/-- In an index that exists, a document is removed if it is there. -/
theorem perform_delete_of_index {found : Index} (hfound : memory.index? name = some found)
    (refresh : RefreshPolicy) :
    memory.perform (.delete name id refresh) =
      match memory.document? name id with
      | none => (.ok none, memory)
      | some document =>
        (.ok (some { id := document.id, version := document.version + 1, status := .deleted }),
          memory.setIndex name { found with documents := found.documents.erase id }) := by
  rw [document?_of_index id hfound]
  cases hdocument : found.documents.get? id with
  | none => simp [perform, withIndex, hfound, hdocument]
  | some document => simp [perform, withIndex, hfound, hdocument]

theorem removes_setIndex {found : Index} (hfound : memory.index? name = some found)
    (id : String) :
    Removes name id memory
      (memory.setIndex name { found with documents := found.documents.erase id }) where
  gone := by rw [document?_erase hfound, if_pos rfl]
  others other key hother := by
    refine document?_setIndex_eq hfound fun heq => ?_
    rw [Table.get?_erase, if_neg fun hkey => hother (Prod.ext heq hkey)]
  numbering other := by
    rw [index?_setIndex]
    split
    · next heq => rw [heq, hfound, Option.map_some, Option.map_some]
    · rfl
  schemas other := by
    rw [index?_setIndex]
    split
    · next heq => rw [heq, hfound, Option.map_some, Option.map_some]
    · rfl
  elsewhere other hother := by rw [index?_setIndex, if_neg hother]

/-- A call that removes nothing leaves the documents that are there. -/
theorem Effect.isSome_document? {call : Call} {reply : call.Reply}
    (h : memory.Effect call reply after) (hretains : Retains (.store call))
    (hpresent : (memory.document? name id).isSome = true) :
    (after.document? name id).isSome = true := by
  cases htouched : touches name id call reply with
  | false => rwa [h.document?_eq htouched]
  | true =>
    cases h with
    | none huntouched =>
      rw [huntouched name id] at htouched
      cases htouched
    | created => cases htouched
    | @written index other body condition timeout refresh found hfound =>
      obtain ⟨rfl, rfl⟩ : index = name ∧ other = id := of_decide_eq_true htouched
      rw [document?_put other hfound, if_pos rfl, Option.isSome_some]
    | removed => exact hretains.elim

theorem handler_of_retains {action : Action} (h : Retains action) (time : String)
    (hpresent : (memory.document? name id).isSome = true) :
    ∃ answer after, handler time action memory = (some answer, after) ∧
      (after.document? name id).isSome = true := by
  cases action with
  | store call => exact ⟨_, _, rfl, (memory.effect call).isSome_document? h hpresent⟩
  | storeWithin seconds call =>
    have hretains : Retains (.store call) := by
      cases call with
      | delete => exact h
      | indexExists | createIndex | write | get => trivial
    exact ⟨_, _, rfl, (memory.effect call).isSome_document? hretains hpresent⟩
  | handOver | askAbandoned | notify | askTime => exact ⟨_, _, rfl, hpresent⟩
  | breakDown => exact h.elim

end Memory

theorem Uuid.isBlankText_text (uuid : Uuid) : Text.isBlankText uuid.text = false := by
  refine List.all_eq_false.mpr ⟨'-', ?_, by decide⟩
  simp [text, String.toList_append]

namespace Indexer

variable {indexer : Indexer} {memory : Memory}

/-! ## Requests to remove a rule -/

theorem filed_serve (h : memory.Filed) (time : String) (order : Order) :
    (indexer.serve time order memory).2.Filed := by
  change ((indexer.orderProgram order).run (Memory.handler time) memory).2.Filed
  rw [run_eq_performAll]
  exact h.performAll _

theorem filed_serveAll (h : memory.Filed) (orders : List (String × Order)) :
    (indexer.serveAll orders memory).Filed := by
  induction orders generalizing memory with
  | nil => exact h
  | cons first orders ih => exact ih (filed_serve h first.1 first.2)

/-- What a request to remove a rule comes to. -/
inductive Removal (indexer : Indexer) (request : RemovalRequest) (before : Memory) :
    Except IndexError Acknowledgement × Memory → Prop
  | blank (hblank : Text.isBlankText request.ruleId = true) :
    Removal indexer request before (.error (.invalidRequest .missingRuleId), before)
  | missing (hnamed : Text.isBlankText request.ruleId = false)
    (hmissing : before.document? indexer.rulesIndex request.ruleId = none) :
    Removal indexer request before (.error (.ruleNotFound request.ruleId), before)
  | removed (document : StoredDocument) (after : Memory)
    (hnamed : Text.isBlankText request.ruleId = false)
    (hdocument : before.document? indexer.rulesIndex request.ruleId = some document)
    (hremoves : before.Removes indexer.rulesIndex request.ruleId after) :
    Removal indexer request before
      (.ok { id := request.ruleId, version := document.version + 1, status := .deleted }, after)

theorem leads_removal (indexer : Indexer) (hfiled : memory.Filed) (time : String)
    (request : RemovalRequest) :
    (indexer.removeRule request).Leads time memory fun outcome after =>
      indexer.Removal request memory (outcome, after) := by
  rw [removeRule, RemovalRequest.validate]
  cases hblank : Text.isBlankText request.ruleId with
  | true => exact .done (.blank hblank)
  | false =>
    apply Leads.call
    cases hfound : memory.index? indexer.rulesIndex with
    | none =>
      rw [Memory.perform_delete_of_none hfound]
      refine .done (.missing hblank ?_)
      rw [Memory.document?, hfound, Option.bind_none]
    | some found =>
      rw [Memory.perform_delete_of_index hfound]
      cases hdocument : memory.document? indexer.rulesIndex request.ruleId with
      | none => exact .done (.missing hblank hdocument)
      | some document =>
        refine .done ?_
        dsimp only
        rw [hfiled _ _ _ hdocument]
        exact .removed document _ hblank hdocument (Memory.removes_setIndex hfound request.ruleId)

theorem removal_serve (indexer : Indexer) (hfiled : memory.Filed) (time : String)
    (request : RemovalRequest) :
    indexer.Removal request memory (indexer.serve time (.remove request) memory) := by
  obtain ⟨outcome, after, hrun, hremoval⟩ :=
    (leads_removal indexer hfiled time request).exists_run
  rw [serve, orderProgram, hrun]
  exact hremoval

section Outcomes

variable {request : RemovalRequest} {served : Except IndexError Acknowledgement × Memory}

/-- A request to remove a rule succeeds exactly if its identifier is not blank and the rule is
there. -/
theorem Removal.ok_iff (h : indexer.Removal request memory served) :
    (∃ acknowledgement, served.1 = .ok acknowledgement) ↔
      Text.isBlankText request.ruleId = false ∧
        ∃ document, memory.document? indexer.rulesIndex request.ruleId = some document := by
  cases h with
  | blank hblank => simp [hblank]
  | missing hnamed hmissing => simp [hmissing]
  | removed document after hnamed hdocument => simp [hnamed, hdocument]

theorem Removal.gone_of_ok (h : indexer.Removal request memory served)
    (hok : ∃ acknowledgement, served.1 = .ok acknowledgement) :
    served.2.document? indexer.rulesIndex request.ruleId = none := by
  cases h with
  | blank | missing =>
    obtain ⟨_, habsurd⟩ := hok
    cases habsurd
  | removed document after hnamed hdocument hremoves => exact hremoves.gone

theorem Removal.eq_of_missing (h : indexer.Removal request memory served)
    (hnamed : Text.isBlankText request.ruleId = false)
    (hmissing : memory.document? indexer.rulesIndex request.ruleId = none) :
    served = (.error (.ruleNotFound request.ruleId), memory) := by
  cases h with
  | blank hblank =>
    rw [hblank] at hnamed
    cases hnamed
  | missing => rfl
  | removed document after _ hdocument =>
    rw [hmissing] at hdocument
    cases hdocument

end Outcomes

/-! ## Rules that were indexed -/

/-- A rule is written only if it has been compiled. -/
theorem verdict_of_prepared {σ : Type} {handler : Handler σ} {before after : σ}
    {exchanges : List Exchange} {request : IndexRequest} {compiled : CompiledRule}
    {table : Table String}
    (h : Ran handler (indexer.prepare request) before exchanges (some (.ok (compiled, table)))
      after) : indexer.tools.verdict request = some (.ok compiled) := by
  rw [prepare] at h
  rw [Toolchain.verdict]
  cases hvalid : request.validate with
  | error fault =>
    rw [hvalid] at h
    cases h.done_cases.2
  | ok _ =>
    rw [hvalid] at h
    obtain ⟨_, _, _, -, -, hready⟩ | ⟨-, -, habsurd⟩ := h.perform_cases
    · obtain ⟨_, ready, _, _, -, hpass, -⟩ | ⟨-, habsurd⟩ := hready.bind_cases
      · cases ready with
        | error cause => cases hpass.done_cases.2
        | ok _ =>
          obtain ⟨outcome, houtcome, hresult, -⟩ | ⟨habsurd, -⟩ := afterPass_cases hpass
          · rw [houtcome, ← Option.some.inj hresult]
            rfl
          · cases habsurd
      · cases habsurd
    · cases habsurd

theorem verdict_of_served {time : String} {request : IndexRequest}
    {acknowledgement : Acknowledgement}
    (h : (indexer.serve time (.index request) memory).1 = .ok acknowledgement) :
    ∃ compiled, indexer.tools.verdict request = some (.ok compiled) := by
  have hran := Ran.of_run (Memory.handler time) (indexer.indexRule request) memory
  have hvalue : ((indexer.indexRule request).run (Memory.handler time) memory).1 =
      some (.ok acknowledgement) := by
    change outcomeOf ((indexer.indexRule request).run (Memory.handler time) memory).1 = _ at h
    cases hresult : ((indexer.indexRule request).run (Memory.handler time) memory).1 with
    | none =>
      rw [hresult] at h
      cases h
    | some outcome =>
      rw [hresult] at h
      exact congrArg some h
  rw [hvalue, indexRule_eq] at hran
  obtain ⟨_, prepared, _, _, hprepare, hrest, -⟩ | ⟨-, habsurd⟩ := hran.bind_cases
  · cases prepared with
    | error cause => exact absurd rfl ((fail_cases hrest).1 acknowledgement)
    | ok prepared => exact ⟨prepared.1, verdict_of_prepared hprepare⟩
  · cases habsurd

theorem only_recording (compiled : CompiledRule) (table : Table String) :
    Only Retains (indexer.recordMappings compiled table) := by
  have henter : Only Retains (enter .mappingUpdate) := .perform trivial
  have hask : Only Retains (perform .askAbandoned) := .perform trivial
  have hkeep (mappings : List FieldMapping) : Only Retains (indexer.keeper.keep mappings) :=
    (only_upkeep indexer.keeper mappings).mono fun _ h => h.2
  refine henter.bind fun _ => hask.bind fun abandoned => ?_
  cases abandoned with
  | true => exact .done _
  | false =>
    refine (hkeep _).bind fun kept => ?_
    cases kept with
    | ok _ => exact .done _
    | error cause => exact .perform trivial

/-- A request whose rule compiles ends with the acknowledgement of the write, and the rule is there
in the end. -/
theorem leads_of_verdict (memory : Memory) (time : String) {request : IndexRequest}
    {compiled : CompiledRule} (h : indexer.tools.verdict request = some (.ok compiled)) :
    (indexer.indexRule request).Leads time memory fun outcome after =>
      (∃ (ready : Memory) (found : Memory.Index),
        (∀ name id, ready.document? name id = memory.document? name id) ∧
        ready.index? indexer.rulesIndex = some found ∧
        outcome = .ok (found.acknowledge compiled.id)) ∧
      (after.document? indexer.rulesIndex compiled.id).isSome = true := by
  obtain ⟨hvalid, table, houtcome⟩ := Toolchain.compiled_of_verdict h
  rw [indexRule_eq]
  refine (leads_prepare hvalid houtcome).bind ?_
  rintro _ ready ⟨rfl, hindexed, hsame⟩
  obtain ⟨found, hfound⟩ := Option.isSome_iff_exists.mp hindexed
  refine (leads_persist hfound compiled _).bind ?_
  rintro _ written ⟨rfl, rfl⟩
  have hwritten : ((ready.setIndex indexer.rulesIndex
      (found.put compiled.id (compiled.document time))).document? indexer.rulesIndex
        compiled.id).isSome = true := by
    rw [Memory.document?_put _ hfound, if_pos rfl, Option.isSome_some]
  refine (Leads.of_only (only_recording compiled table)
    (fun action memory haction => Memory.handler_of_retains haction time) hwritten).bind ?_
  intro _ after hpresent
  apply Leads.notify
  exact .done ⟨⟨ready, found, hsame, hfound, rfl⟩, hpresent⟩

theorem serve_of_verdict (memory : Memory) (time : String) {request : IndexRequest}
    {compiled : CompiledRule} (h : indexer.tools.verdict request = some (.ok compiled)) :
    let served := indexer.serve time (.index request) memory
    (∃ acknowledgement, served.1 = .ok acknowledgement ∧ acknowledgement.id = compiled.id ∧
      (memory.document? indexer.rulesIndex compiled.id = none →
        acknowledgement = { id := compiled.id, version := 1, status := .created })) ∧
    ∃ document, served.2.document? indexer.rulesIndex compiled.id = some document := by
  intro served
  obtain ⟨_, after, hrun, ⟨ready, found, hsame, hfound, rfl⟩, hpresent⟩ :=
    (leads_of_verdict memory time h).exists_run
  have hserved : served = (.ok (found.acknowledge compiled.id), after) := by
    change (_, _) = _
    rw [orderProgram, hrun]
    rfl
  rw [hserved]
  refine ⟨⟨_, rfl, found.id_acknowledge compiled.id, fun hmissing => ?_⟩,
    Option.isSome_iff_exists.mp hpresent⟩
  rw [← hsame, Memory.document?_of_index _ hfound] at hmissing
  rw [Memory.Index.acknowledge, hmissing]

/-- Whether the rule of a request is removed once from a store, and indexing it again begins its
versions anew. -/
def RemovedOnce (indexer : Indexer) (request : IndexRequest) (id : String) (filed : Memory) :
    Prop :=
  ∀ (first second : String × RemovalRequest) (last : String),
    first.2.ruleId = id → second.2.ruleId = id →
      let removed := indexer.serve first.1 (.remove first.2) filed
      let missed := indexer.serve second.1 (.remove second.2) removed.2
      (∃ acknowledgement, removed.1 = .ok acknowledgement) ∧
      missed = (.error (.ruleNotFound id), removed.2) ∧
      (indexer.serve last (.index request) missed.2).1 =
        .ok { id, version := 1, status := .created }

theorem removedOnce_of_served (hfiled : memory.Filed) {time : String} {request : IndexRequest}
    {acknowledgement : Acknowledgement}
    (h : (indexer.serve time (.index request) memory).1 = .ok acknowledgement) :
    indexer.RemovedOnce request acknowledgement.id
      (indexer.serve time (.index request) memory).2 := by
  intro first second last hfirst hsecond removed missed
  obtain ⟨compiled, hverdict⟩ := verdict_of_served h
  obtain ⟨⟨_, hserved, hid, -⟩, hpresent⟩ :=
    serve_of_verdict memory time hverdict
  obtain rfl := Except.ok.inj (h.symm.trans hserved)
  have hnamed : Text.isBlankText acknowledgement.id = false := by
    rw [hid]
    exact compiled.rule.id.isBlankText_text
  have hstored : (indexer.serve time (.index request) memory).2.Filed :=
    filed_serve hfiled time (.index request)
  have hremoval : indexer.Removal first.2 _ removed :=
    removal_serve indexer hstored first.1 first.2
  have hok := hremoval.ok_iff.mpr ⟨hfirst ▸ hnamed, hfirst ▸ hid ▸ hpresent⟩
  have hgone := hremoval.gone_of_ok hok
  have hleft : removed.2.Filed := filed_serve hstored first.1 (.remove first.2)
  have hsecondRemoval : indexer.Removal second.2 _ missed :=
    removal_serve indexer hleft second.1 second.2
  rw [hfirst] at hgone
  have hmissed := hsecondRemoval.eq_of_missing (hsecond ▸ hnamed) (hsecond ▸ hgone)
  rw [hsecond] at hmissed
  refine ⟨hok, hmissed, ?_⟩
  obtain ⟨⟨_, hagain, -, hcreated⟩, -⟩ :=
    serve_of_verdict removed.2 last hverdict
  rw [hmissed, hagain, hcreated (hid ▸ hgone), hid]

/-- In every store that calls and requests lead to, a request to remove a rule removes one document
or nothing: it succeeds exactly if its identifier is not blank and the index of rules holds a
document under it.  Whatever rule was indexed can then be removed once, and indexed anew. -/
theorem removal_of_rule (indexer : Indexer) (calls : List Call) (orders : List (String × Order)) :
    let memory := indexer.serveAll orders (Memory.empty.performAll calls)
    (∀ (time : String) (request : RemovalRequest),
      let served := indexer.serve time (.remove request) memory
      ((∃ acknowledgement, served.1 = .ok acknowledgement) ↔
        Text.isBlankText request.ruleId = false ∧
          ∃ document, memory.document? indexer.rulesIndex request.ruleId = some document) ∧
      indexer.Removal request memory served) ∧
    ∀ (time : String) (request : IndexRequest) (acknowledgement : Acknowledgement),
      let served := indexer.serve time (.index request) memory
      served.1 = .ok acknowledgement →
        indexer.RemovedOnce request acknowledgement.id served.2 := by
  intro memory
  have hfiled : memory.Filed := filed_serveAll (Memory.filed_empty.performAll calls) orders
  constructor
  · intro time request served
    have hremoval := removal_serve indexer hfiled time request
    exact ⟨hremoval.ok_iff, hremoval⟩
  · intro time request acknowledgement served hserved
    exact removedOnce_of_served hfiled hserved

/-- A request for the rule with an identifier of its own. -/
def dnsRequest : IndexRequest :=
  .make dnsRule "dns" false .none

/-- The rule is stored over an earlier version, removed once, and new after that. -/
theorem removal_of_rule_renewed :
    let memory := keeping.serveAll [] (Memory.empty.performAll earlierCalls)
    let served := keeping.serve "noon" (.index dnsRequest) memory
    served.1 = .ok (stamp "6f8d1b52-3c4e-4a6b-9d0f-2e1c7a5b8d34" 2) ∧
    keeping.RemovedOnce dnsRequest "6f8d1b52-3c4e-4a6b-9d0f-2e1c7a5b8d34" served.2 := by
  intro memory served
  have hserved : served.1 = .ok (stamp "6f8d1b52-3c4e-4a6b-9d0f-2e1c7a5b8d34" 2) := by
    decide +kernel
  exact ⟨hserved, (removal_of_rule keeping earlierCalls []).2 "noon" dnsRequest _ hserved⟩

end Indexer

end SigmaCatalog
