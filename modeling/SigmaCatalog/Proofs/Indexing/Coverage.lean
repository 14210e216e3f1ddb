import SigmaCatalog.Proofs.Indexing.Serving
import SigmaCatalog.Proofs.Text.Normal

/-!
# Stored rules and the mappings of their fields

After any requests, each served to its end, every stored rule can be made again from its own text
and category, and every field that its queries consult has a mapping for its category.  A rule that
is replaced under another category, removed or added again takes nothing away from the others, since
mappings are only ever merged.
-/

namespace SigmaCatalog

open Program

/-! ## Documents of rules -/

/-- What the document of a rule says of what the rule was made from and of what was made of it. -/
structure StoredRule where
  text : String
  category : String
  queries : List String
  fields : List String

namespace StoredRule

/-- The texts of a list that holds each in an object of its own. -/
def nestedTexts? (text? : Json → Option String) : Json → Option (List String)
  | .array elements => elements.mapM fun element => (element.get? "value").bind text?
  | _ => none

def queryText? (query : Json) : Option String :=
  (query.get? "query").bind Json.text?

def ofJson? (document : Json) : Option StoredRule := do
  let rule ← document.get? "rule"
  return {
    text := ← (← rule.get? "rule").text?
    category := ← (← rule.get? "category").text?
    queries := ← nestedTexts? queryText? (← rule.get? "queries")
    fields := ← nestedTexts? Json.text? (← rule.get? "query_field_names") }

theorem nestedTexts?_nested {text? : Json → Option String} {document : String → Json}
    (h : ∀ text, text? (document text) = some text) (texts : List String) :
    nestedTexts? text? (CompiledRule.nested (texts.map document)) = some texts := by
  have hvalue (value : Json) :
      ((Json.object [("value", value)]).get? "value").bind text? = text? value := by
    simp [Json.object, Json.get?, Entries.get?_insert]
  simp only [CompiledRule.nested, nestedTexts?, List.mapM_map, Function.comp_def, hvalue, h]
  exact (List.mapM_pure (m := Option) (f := id)).trans (congrArg some (List.map_id _))

/-- The document of a compiled rule says what it was made from and what was made of it. -/
theorem ofJson?_document (compiled : CompiledRule) (time : String) :
    ofJson? (compiled.document time) = some {
      text := compiled.text
      category := compiled.category
      queries := compiled.queries
      fields := compiled.fields } := by
  have hquery (query : String) : queryText? (CompiledRule.queryDocument query) = some query := by
    simp [queryText?, CompiledRule.queryDocument, Json.object, Json.get?, Entries.get?_insert,
      Json.text?]
  have hfield (field : String) : Json.text? (.string field) = some field := rfl
  have hqueries := nestedTexts?_nested hquery compiled.queries
  have hfields := nestedTexts?_nested hfield compiled.fields
  simp [ofJson?, CompiledRule.document, Json.object, Json.get?, Entries.get?_insert, Json.text?,
    hqueries, hfields]

end StoredRule

/-! ## Rules that compile -/

/-- A rule that was compiled for a submission is made again from its own text and category. -/
theorem Submission.preview_again {tools : Toolchain} {submission : Submission}
    {compiled : CompiledRule} (h : tools.verdict submission.request = some (.ok compiled))
    (htext : compiled.text = submission.request.text)
    (hcategory : compiled.category = submission.request.category) :
    (tools.preview compiled.text compiled.category).outcome = some (.ok compiled) := by
  rw [tools.preview_eq_verdict compiled.text compiled.category false .none, ← h]
  apply tools.verdict_congr
  · exact htext
  · rw [IndexRequest.make, hcategory]
    exact Text.lowerAscii_trim_twice submission.category

/-! ## The invariant -/

/-- What holds of a store between requests: the index of mappings holds mappings, and every stored
rule can be made again and has its fields covered. -/
structure Covered (indexer : Indexer) (mappingsIndex schema : String) (memory : Memory) : Prop where
  holds : memory.HoldsMappings mappingsIndex
  rules : ∀ id document, memory.document? indexer.rulesIndex id = some document →
    document.id = id ∧ ∃ compiled time, document.source = compiled.document time ∧
      compiled.id = id ∧
      (indexer.tools.preview compiled.text compiled.category).outcome = some (.ok compiled) ∧
      ∀ field ∈ compiled.fields, memory.Covers mappingsIndex schema compiled.category field

namespace Covered

variable {indexer : Indexer} {mappingsIndex schema time : String} {memory after : Memory}

theorem begin (indexer : Indexer) (mappingsIndex schema : String) :
    Covered indexer mappingsIndex schema .empty where
  holds rawField document hdocument := by cases hdocument
  rules id document hdocument := by cases hdocument

/-- The invariant is about documents, and about fewer rules it says less. -/
theorem congr (h : Covered indexer mappingsIndex schema memory)
    (hmappings : ∀ field, after.document? mappingsIndex field =
      memory.document? mappingsIndex field)
    (hrules : ∀ id document, after.document? indexer.rulesIndex id = some document →
      memory.document? indexer.rulesIndex id = some document) :
    Covered indexer mappingsIndex schema after := by
  constructor
  · intro rawField document hdocument
    exact h.holds rawField document ((hmappings rawField).symm.trans hdocument)
  · intro id document hdocument
    obtain ⟨hid, compiled, writeTime, hsource, hcompiled, hpreview, hfields⟩ :=
      h.rules id document (hrules id document hdocument)
    exact ⟨hid, compiled, writeTime, hsource, hcompiled, hpreview, fun field hfield =>
      (hfields field hfield).congr (hmappings field)⟩

/-- Removing a rule leaves the others covered. -/
theorem delete (h : Covered indexer mappingsIndex schema memory)
    (hindices : indexer.rulesIndex ≠ mappingsIndex) (ruleId : String) (refresh : RefreshPolicy) :
    Covered indexer mappingsIndex schema
      (memory.perform (.delete indexer.rulesIndex ruleId refresh)).2 := by
  have heffect := memory.effect (.delete indexer.rulesIndex ruleId refresh)
  generalize (memory.perform (.delete indexer.rulesIndex ruleId refresh)).1 = reply at heffect
  generalize (memory.perform (.delete indexer.rulesIndex ruleId refresh)).2 = after at heffect ⊢
  apply h.congr
  · intro field
    exact heffect.document?_eq (Memory.touches_of_index_ne hindices)
  · intro id document hdocument
    cases heffect with
    | none => exact hdocument
    | removed hfound =>
      rw [Memory.document?_erase hfound] at hdocument
      split at hdocument
      · cases hdocument
      · exact hdocument

/-- A rule that is written and whose fields are recorded is covered, and the others still are. -/
theorem file (h : Covered indexer mappingsIndex schema memory)
    (hindices : indexer.rulesIndex ≠ mappingsIndex) {compiled : CompiledRule}
    (hpreview : (indexer.tools.preview compiled.text compiled.category).outcome =
      some (.ok compiled))
    (hfields : ∀ field ∈ compiled.fields, field ≠ "")
    {found : Memory.Index} (hfound : memory.index? indexer.rulesIndex = some found)
    (hrecorded : Recorded mappingsIndex (compiled.contribution schema)
      (memory.setIndex indexer.rulesIndex (found.put compiled.id (compiled.document time))) after) :
    Covered indexer mappingsIndex schema after := by
  have hcovers {logType field : String}
      (hlogType : memory.Covers mappingsIndex schema logType field ∨
        ∃ mapping ∈ compiled.contribution schema, mapping.rawField = field ∧
          logType ∈ TextSet.members mapping.logTypes) :
      after.Covers mappingsIndex schema logType field := by
    have hwritten : (memory.setIndex indexer.rulesIndex
        (found.put compiled.id (compiled.document time))).document? mappingsIndex field =
          memory.document? mappingsIndex field :=
      Memory.document?_setIndex_eq hfound fun heq => absurd heq.symm hindices
    exact hrecorded.covers (fun _ => CompiledRule.keepsName_of_mem_contribution)
      (hlogType.imp_left fun hold => hold.congr hwritten)
  constructor
  · exact hrecorded.holds
  · intro id document hdocument
    rw [hrecorded.others indexer.rulesIndex id hindices, Memory.document?_put _ hfound]
      at hdocument
    split at hdocument
    · next hid =>
      obtain rfl := Option.some.inj hdocument
      refine ⟨hid.symm, compiled, time, rfl, hid.symm, hpreview, fun field hfield => ?_⟩
      exact hcovers (.inr (CompiledRule.exists_mem_contribution hfield (hfields field hfield)))
    · obtain ⟨hid, earlier, writeTime, hsource, hearlier, hagain, hkept⟩ :=
        h.rules id document hdocument
      exact ⟨hid, earlier, writeTime, hsource, hearlier, hagain, fun field hfield =>
        hcovers (.inl (hkept field hfield))⟩

/-- Indexing a rule keeps every rule covered, whether or not the request is refused. -/
theorem index (h : Covered indexer mappingsIndex schema memory)
    (hindices : indexer.rulesIndex ≠ mappingsIndex) {submission : Submission}
    (hindexed : indexer.Indexed mappingsIndex schema time submission memory after) :
    Covered indexer mappingsIndex schema after := by
  cases hindexed with
  | refused cause hverdict hsame =>
    exact h.congr (hsame mappingsIndex) fun id document =>
      (hsame indexer.rulesIndex id).symm.trans
  | filed ready found compiled table hverdict hcompiled hsame hfound hrecorded =>
    have hready : Covered indexer mappingsIndex schema ready :=
      h.congr (hsame mappingsIndex) fun id document =>
        (hsame indexer.rulesIndex id).symm.trans
    have hpreview := submission.preview_again hverdict hcompiled.text hcompiled.category
    exact hready.file hindices hpreview hcompiled.fields_ne hfound hrecorded

end Covered

/-! ## Requests -/

/-- What a client asks for. -/
inductive Demand where
  | index (submission : Submission)
  | remove (request : RemovalRequest)

def Demand.order : Demand → Indexer.Order
  | index submission => .index submission.request
  | remove request => .remove request

namespace Indexer

section Runs

variable {indexer : Indexer} {mappingsIndex schema keeperSchema time : String} {timeout : Nat}
  {memory : Memory}

variable (htools : indexer.tools = .standard)
  (hkeeper : indexer.keeper = .index mappingsIndex schema timeout)
  (hindices : indexer.rulesIndex ≠ mappingsIndex)

include hindices in
/-- Removing a rule keeps the others covered. -/
theorem leads_removeRule (h : Covered indexer mappingsIndex schema memory)
    (request : RemovalRequest) :
    (indexer.removeRule request).Leads time memory fun _ after =>
      Covered indexer mappingsIndex schema after := by
  rw [removeRule]
  split
  · exact .done h
  · apply Leads.call
    have hafter := h.delete hindices request.ruleId request.refresh
    split
    all_goals exact .done hafter

include htools hkeeper hindices in
theorem covered_serveAll (h : Covered indexer mappingsIndex schema memory)
    (demands : List (String × Demand)) :
    Covered indexer mappingsIndex schema
      (indexer.serveAll (demands.map fun (time, demand) => (time, demand.order)) memory) := by
  induction demands generalizing memory with
  | nil => exact h
  | cons first demands ih =>
    obtain ⟨time, demand⟩ := first
    have hleads : (indexer.orderProgram demand.order).Leads time memory fun _ after =>
        Covered indexer mappingsIndex schema after := by
      cases demand with
      | index submission =>
        exact (leads_indexRule htools hkeeper hindices h.holds submission).mono fun _ _ hindexed =>
          h.index hindices hindexed
      | remove request => exact leads_removeRule hindices h request
    obtain ⟨value, after, hrun, hafter⟩ := hleads.exists_run
    have hserve : (indexer.serve time demand.order memory).2 = after := by
      rw [serve, hrun]
    rw [List.map_cons, serveAll_cons, hserve]
    exact ih hafter

end Runs

/-- Every stored rule stays covered and can be made again.  After any requests to index and to
remove rules, each served to its end, a preview of the text and the category that a document holds
gives the rule with the identifier of the document and the queries and fields that it holds; and for
each of these fields the index of mappings holds a mapping of it under its own name, with the
category of the document among its log types. -/
theorem stored_rules_covered (indexer : Indexer) (htools : indexer.tools = .standard)
    {mappingsIndex schema : String} {timeout : Nat}
    (hkeeper : indexer.keeper = .index mappingsIndex schema timeout)
    (hindices : indexer.rulesIndex ≠ mappingsIndex) (demands : List (String × Demand)) :
    let memory := indexer.serveAll
      (demands.map fun (time, demand) => (time, demand.order)) .empty
    ∀ id document, memory.document? indexer.rulesIndex id = some document →
      document.id = id ∧ ∃ stored compiled, StoredRule.ofJson? document.source = some stored ∧
        (indexer.tools.preview stored.text stored.category).outcome = some (.ok compiled) ∧
        compiled.id = id ∧ compiled.queries = stored.queries ∧ compiled.fields = stored.fields ∧
        ∀ field ∈ stored.fields, ∃ kept mapping,
          memory.document? mappingsIndex field = some kept ∧
          FieldMapping.ofJson? kept.source = some mapping ∧ mapping.rawField = field ∧
          mapping.schemaFields.get? schema = some field ∧
          stored.category ∈ TextSet.members mapping.logTypes := by
  intro memory id document hdocument
  have hcovered : Covered indexer mappingsIndex schema memory :=
    covered_serveAll htools hkeeper hindices (Covered.begin indexer mappingsIndex schema) demands
  obtain ⟨hid, compiled, time, hsource, hcompiled, hpreview, hfields⟩ :=
    hcovered.rules id document hdocument
  have hstored := StoredRule.ofJson?_document compiled time
  rw [← hsource] at hstored
  refine ⟨hid, _, compiled, hstored, hpreview, hcompiled, rfl, rfl, ?_⟩
  intro field hfield
  obtain ⟨mapping, hmapping, hrawField, hkeeps, hlogType⟩ := hfields field hfield
  obtain ⟨kept, hkept, hdecoded⟩ := Option.bind_eq_some_iff.mp hmapping
  rw [FieldMapping.KeepsName, hrawField] at hkeeps
  exact ⟨kept, mapping, hkept, hdecoded, hrawField, hkeeps, hlogType⟩

/-- A rule with a field that other rules use too. -/
def sharedFieldRule (id : String) : String :=
  "title: t\nid: " ++ id ++ "\ndetection:\n  sel:\n    a: 1\n    b: 2\n  condition: sel\n"

/-- A rule is stored for two categories, one after the other, and another one is stored and
removed. -/
def replacingDemands : List (String × Demand) :=
  [("noon", .index ⟨sharedFieldRule "6f8d1b52-3c4e-4a6b-9d0f-2e1c7a5b8d34", "dns", false, .none⟩),
    ("one", .index ⟨sharedFieldRule "0d7a4c1e-58b3-4f29-8e6a-b91f3c2d7e05", "dns", false, .none⟩),
    ("two", .index ⟨sharedFieldRule "6f8d1b52-3c4e-4a6b-9d0f-2e1c7a5b8d34", " Process ", false,
      .none⟩),
    ("three", .remove ⟨"0d7a4c1e-58b3-4f29-8e6a-b91f3c2d7e05", false, .none⟩)]

theorem stored_rules_covered_replaced :
    let memory := keeping.serveAll
      (replacingDemands.map fun (time, demand) => (time, demand.order)) .empty
    (keeping.tools = .standard ∧ keeping.keeper = .index "mappings" "ecs" 30 ∧
      keeping.rulesIndex ≠ "mappings") ∧
    memory.document? "rules" "0d7a4c1e-58b3-4f29-8e6a-b91f3c2d7e05" = none ∧
    ∃ document stored,
      memory.document? "rules" "6f8d1b52-3c4e-4a6b-9d0f-2e1c7a5b8d34" = some document ∧
      StoredRule.ofJson? document.source = some stored ∧
      stored.category = "process" ∧ stored.fields = ["a", "b"] ∧
      ∀ field ∈ stored.fields, ∃ kept mapping, memory.document? "mappings" field = some kept ∧
        FieldMapping.ofJson? kept.source = some mapping ∧ mapping.rawField = field ∧
        mapping.schemaFields.get? "ecs" = some field ∧
        stored.category ∈ TextSet.members mapping.logTypes := by
  intro memory
  have hindices : keeping.rulesIndex ≠ "mappings" := by
    decide
  -- One evaluation of the requests gives both.
  have hafter : (memory.document? "rules" "0d7a4c1e-58b3-4f29-8e6a-b91f3c2d7e05").isNone = true ∧
      ((memory.document? "rules" "6f8d1b52-3c4e-4a6b-9d0f-2e1c7a5b8d34").bind fun document =>
        (StoredRule.ofJson? document.source).map fun stored =>
          (stored.category, stored.fields)) = some ("process", ["a", "b"]) := by
    decide +kernel
  obtain ⟨hremoved, hkept⟩ := hafter
  obtain ⟨document, hdocument, hstored⟩ := Option.bind_eq_some_iff.mp hkept
  obtain ⟨stored, hread, hparts⟩ := Option.map_eq_some_iff.mp hstored
  obtain ⟨-, found, compiled, hfound, -, -, -, -, hcovered⟩ :=
    stored_rules_covered keeping rfl rfl hindices replacingDemands _ document hdocument
  obtain rfl := Option.some.inj (hread.symm.trans hfound)
  obtain ⟨hcategory, hfields⟩ := Prod.mk.inj hparts
  exact ⟨⟨rfl, rfl, hindices⟩, Option.isNone_iff_eq_none.mp hremoved, document, stored, hdocument,
    hread, hcategory, hfields, hcovered⟩

end Indexer

end SigmaCatalog
