import SigmaCatalog.Proofs.Indexing.Serving

/-!
# Requests in any order

Which mappings are kept does not depend on the order in which rules are indexed, nor on how often
each of them is.  What a request contributes is decided by its text and its category.  Fields that
keep their names have the same names in all contributions, so that it makes no difference whose
names win when they are merged; log types only add up.
-/

namespace SigmaCatalog

open Program

/-! ## Contributions -/

/-- What a submission is about: the text of a rule and its category. -/
def Submission.subject (submission : Submission) : String × String :=
  (submission.text, submission.category)

namespace Toolchain

/-- The mappings that a submission contributes; a submission that is refused contributes none. -/
def contribution (tools : Toolchain) (schema : String) (submission : Submission) :
    List FieldMapping :=
  match tools.verdict submission.request with
  | some (.ok compiled) => compiled.contribution schema
  | _ => []

variable {tools : Toolchain} {schema : String}

/-- Submissions about the same contribute the same. -/
theorem contribution_congr {submission other : Submission}
    (h : submission.subject = other.subject) :
    tools.contribution schema submission = tools.contribution schema other := by
  obtain ⟨htext, hcategory⟩ := Prod.mk.inj h
  have hverdict : tools.verdict submission.request = tools.verdict other.request :=
    tools.verdict_congr htext
      (congrArg (fun category => Text.lowerAscii (Text.trim category)) hcategory)
  unfold contribution
  rw [hverdict]

theorem schemaFields_of_mem_contribution {submission : Submission} {mapping : FieldMapping}
    (h : mapping ∈ tools.contribution schema submission) :
    mapping.schemaFields = Table.ofList [(schema, mapping.rawField)] := by
  unfold contribution at h
  split at h
  · exact CompiledRule.schemaFields_of_mem_contribution h
  · cases h

def contributions (tools : Toolchain) (schema : String) (submissions : List Submission) :
    List FieldMapping :=
  submissions.flatMap (tools.contribution schema)

theorem mem_contributions_of_subjects {first second : List Submission}
    (h : ∀ subject ∈ first.map Submission.subject, subject ∈ second.map Submission.subject)
    {mapping : FieldMapping} (hmapping : mapping ∈ tools.contributions schema first) :
    mapping ∈ tools.contributions schema second := by
  obtain ⟨submission, hsubmission, hmember⟩ := List.mem_flatMap.mp hmapping
  obtain ⟨other, hother, hsubject⟩ := List.mem_map.mp (h _ (List.mem_map_of_mem hsubmission))
  rw [← contribution_congr hsubject] at hmember
  exact List.mem_flatMap.mpr ⟨other, hother, hmember⟩

/-- Of the contributions to one field, neither the order nor the number matters. -/
theorem mergeOver_contributions {first second : List Submission} {initial : Option FieldMapping}
    {field : String} (hinitial : ∀ mapping ∈ initial, mapping.rawField = field)
    (hsame : ∀ subject,
      subject ∈ first.map Submission.subject ↔ subject ∈ second.map Submission.subject) :
    FieldMapping.mergeOver initial
        ((tools.contributions schema first).filter fun mapping => mapping.rawField = field) =
      FieldMapping.mergeOver initial
        ((tools.contributions schema second).filter fun mapping => mapping.rawField = field) := by
  have hagree : ∀ mapping ∈
      (tools.contributions schema first).filter fun mapping => mapping.rawField = field,
      mapping.rawField = field ∧ mapping.schemaFields = Table.ofList [(schema, field)] := by
    intro mapping hmapping
    obtain ⟨hmember, hfield⟩ := List.mem_filter.mp hmapping
    obtain ⟨submission, -, hcontributed⟩ := List.mem_flatMap.mp hmember
    obtain rfl := of_decide_eq_true hfield
    exact ⟨rfl, schemaFields_of_mem_contribution hcontributed⟩
  refine FieldMapping.mergeOver_congr_of_agree hinitial hagree fun mapping => ?_
  rw [List.mem_filter, List.mem_filter]
  refine and_congr_left fun _ => ⟨?_, ?_⟩
  · exact mem_contributions_of_subjects fun subject => (hsame subject).mp
  · exact mem_contributions_of_subjects fun subject => (hsame subject).mpr

end Toolchain

/-! ## Requests one after another -/

namespace Indexer

section Requests

variable {indexer : Indexer} {mappingsIndex schema time : String} {timeout : Nat}
  {memory after : Memory}

/-- In the index of mappings, a request to index a rule merges what its submission contributes. -/
theorem Indexed.accumulated {submission : Submission}
    (h : indexer.Indexed mappingsIndex schema time submission memory after)
    (hindices : indexer.rulesIndex ≠ mappingsIndex) (hholds : memory.HoldsMappings mappingsIndex) :
    Accumulated mappingsIndex (indexer.tools.contribution schema submission) memory after := by
  cases h with
  | refused cause hverdict hsame =>
    unfold Toolchain.contribution
    rw [hverdict]
    exact accumulated_of_same hholds (hsame mappingsIndex)
  | filed ready found compiled table hverdict hcompiled hsame hfound hrecorded =>
    unfold Toolchain.contribution
    rw [hverdict]
    refine (accumulated_of_same hholds fun field => ?_).append hrecorded.toAccumulated
    rw [Memory.document?_setIndex_eq hfound fun heq => absurd heq.symm hindices, hsame]

/-- Requests one after another merge what all their submissions contribute. -/
theorem accumulated_serveAll (htools : indexer.tools = .standard)
    (hkeeper : indexer.keeper = .index mappingsIndex schema timeout)
    (hindices : indexer.rulesIndex ≠ mappingsIndex) (hholds : memory.HoldsMappings mappingsIndex)
    (submissions : List (String × Submission)) :
    Accumulated mappingsIndex (indexer.tools.contributions schema (submissions.map Prod.snd))
      memory (indexer.serveAll
        (submissions.map fun (time, submission) => (time, .index submission.request)) memory) := by
  induction submissions generalizing memory with
  | nil => exact accumulated_of_same hholds fun _ => rfl
  | cons first submissions ih =>
    obtain ⟨time, submission⟩ := first
    have hleads : (indexer.orderProgram (.index submission.request)).Leads time memory
        fun _ after => indexer.Indexed mappingsIndex schema time submission memory after :=
      leads_indexRule htools hkeeper hindices hholds submission
    obtain ⟨value, after, hrun, hindexed⟩ := hleads.exists_run
    have haccumulated := hindexed.accumulated hindices hholds
    have hserve : (indexer.serve time (.index submission.request) memory).2 = after := by
      rw [serve, hrun]
    rw [List.map_cons, List.map_cons, serveAll_cons, hserve, Toolchain.contributions,
      List.flatMap_cons]
    exact haccumulated.append (ih haccumulated.holds)

end Requests

/-- However often and in whatever order the rules of the same texts and categories are indexed, the
index of mappings holds the same documents in the end, apart from their versions and numbers. -/
theorem mappings_of_same_subjects (indexer : Indexer) {mappingsIndex schema : String}
    {timeout : Nat} (htools : indexer.tools = .standard)
    (hkeeper : indexer.keeper = .index mappingsIndex schema timeout)
    (hindices : indexer.rulesIndex ≠ mappingsIndex) (memory : Memory)
    (hholds : memory.HoldsMappings mappingsIndex) (first second : List (String × Submission))
    (hsame : ∀ subject, subject ∈ (first.map Prod.snd).map Submission.subject ↔
      subject ∈ (second.map Prod.snd).map Submission.subject) (id : String) :
    let serve := fun submissions : List (String × Submission) => indexer.serveAll
      (submissions.map fun (time, submission) => (time, .index submission.request)) memory
    ((serve first).document? mappingsIndex id).map StoredDocument.source =
      ((serve second).document? mappingsIndex id).map StoredDocument.source := by
  intro serve
  have hfirst : Accumulated mappingsIndex _ memory (serve first) :=
    accumulated_serveAll htools hkeeper hindices hholds first
  have hsecond : Accumulated mappingsIndex _ memory (serve second) :=
    accumulated_serveAll htools hkeeper hindices hholds second
  have hmapping : (serve first).mapping? mappingsIndex id =
      (serve second).mapping? mappingsIndex id := by
    rw [hfirst.merged, hsecond.merged]
    exact Toolchain.mergeOver_contributions (mapping?_of_holds hholds id).2 hsame
  rw [(mapping?_of_holds hfirst.holds id).1, (mapping?_of_holds hsecond.holds id).1, hmapping]

/-- Two rules that share a field. -/
def sharingRule (id field : String) : String :=
  "title: t\nid: " ++ id ++ "\ndetection:\n  sel:\n    a: 1\n    " ++ field ++
    ": 2\n  condition: sel\n"

/-- Two rules are indexed, one of them for two categories, and a third is refused. -/
def orderlySubmissions : List (String × Submission) :=
  [("noon", ⟨sharingRule "6f8d1b52-3c4e-4a6b-9d0f-2e1c7a5b8d34" "b", "dns", false, .none⟩),
    ("one", ⟨sharingRule "0d7a4c1e-58b3-4f29-8e6a-b91f3c2d7e05" "c", "Process", false, .none⟩),
    ("two", ⟨"title: t", "dns", false, .none⟩),
    ("three", ⟨sharingRule "6f8d1b52-3c4e-4a6b-9d0f-2e1c7a5b8d34" "b", "file", false, .none⟩)]

/-- The same in another order, and one of them twice. -/
def disorderlySubmissions : List (String × Submission) :=
  orderlySubmissions.reverse ++ orderlySubmissions.take 1

theorem mappings_of_same_subjects_reversed :
    let serve := fun submissions : List (String × Submission) => keeping.serveAll
      (submissions.map fun (time, submission) => (time, .index submission.request)) .empty
    (keeping.tools = .standard ∧ keeping.keeper = .index "mappings" "ecs" 30 ∧
      keeping.rulesIndex ≠ "mappings") ∧
    (((serve orderlySubmissions).mapping? "mappings" "a").map fun mapping =>
      TextSet.members mapping.logTypes) = some ["dns", "file", "process"] ∧
    ∀ id, ((serve orderlySubmissions).document? "mappings" id).map StoredDocument.source =
      ((serve disorderlySubmissions).document? "mappings" id).map StoredDocument.source := by
  intro serve
  have hindices : keeping.rulesIndex ≠ "mappings" := by
    decide
  have hholds : Memory.empty.HoldsMappings "mappings" := fun _ _ hdocument => by
    cases hdocument
  refine ⟨⟨rfl, rfl, hindices⟩, by decide +kernel, fun id => ?_⟩
  refine mappings_of_same_subjects keeping rfl rfl hindices .empty hholds orderlySubmissions
    disorderlySubmissions (fun subject => ?_) id
  rw [disorderlySubmissions, List.map_append, List.map_append, List.mem_append, List.map_reverse,
    List.map_reverse, List.mem_reverse, List.map_take, List.map_take]
  exact ⟨.inl, fun h => h.elim (fun hlisted => hlisted) List.mem_of_mem_take⟩

end Indexer

end SigmaCatalog
