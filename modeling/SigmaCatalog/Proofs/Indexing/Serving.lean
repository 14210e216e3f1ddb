import SigmaCatalog.Indexing.Service
import SigmaCatalog.Proofs.Indexing.Filing
import SigmaCatalog.Proofs.Indexing.TwoPass
import SigmaCatalog.Proofs.Rule.Bodies
import SigmaCatalog.Proofs.Store.Running

/-!
# What a served request does

A request to index a rule that has a store in memory to itself comes to its end.  If its rule is
refused, no document changes.  Otherwise the rule is written under its identifier, and the mappings
of its fields are merged into the documents of the fields.
-/

namespace SigmaCatalog

open Program

/-! ## What a rule contributes -/

namespace CompiledRule

/-- The mappings of the fields of a rule that keep their names. -/
def contribution (schema : String) (compiled : CompiledRule) : List FieldMapping :=
  FieldMapping.ofFields compiled.category schema ∅ compiled.fields

variable {schema : String} {compiled : CompiledRule}

theorem schemaFields_of_mem_contribution {mapping : FieldMapping}
    (h : mapping ∈ compiled.contribution schema) :
    mapping.schemaFields = Table.ofList [(schema, mapping.rawField)] := by
  obtain ⟨field, -, rfl⟩ := List.mem_map.mp h
  rfl

theorem keepsName_of_mem_contribution {mapping : FieldMapping}
    (h : mapping ∈ compiled.contribution schema) : mapping.KeepsName schema := by
  rw [FieldMapping.KeepsName, schemaFields_of_mem_contribution h]
  exact Table.get?_insert_self ∅ schema mapping.rawField

/-- Every field of a rule has a mapping that lists the category of the rule. -/
theorem exists_mem_contribution {field : String} (hfield : field ∈ compiled.fields)
    (hname : field ≠ "") :
    ∃ mapping ∈ compiled.contribution schema, mapping.rawField = field ∧
      compiled.category ∈ TextSet.members mapping.logTypes := by
  have hnamed : (!field.isEmpty) = true := by simpa using hname
  refine ⟨_, List.mem_map_of_mem (List.mem_filter.mpr ⟨hfield, hnamed⟩), rfl, ?_⟩
  exact TextSet.mem_addAll.mpr (.inl (List.mem_singleton_self compiled.category))

end CompiledRule

/-! ## Rules that compile -/

/-- Every field that the queries of a rule consult has a name. -/
theorem fields_ne_of_compile {text : String} {table : Table String} {strict : Bool}
    {artifact : Artifact} (h : compile text table strict = .ok artifact) :
    ∀ field ∈ artifact.fields, field ≠ "" := by
  cases hparse : Rule.parse text with
  | error cause =>
    rw [compile_of_unreadable hparse] at h
    cases h
  | ok rule =>
    cases hvalid : rule.isValid with
    | false =>
      rw [compile_of_invalid hparse hvalid] at h
      cases h
    | true =>
      rw [compile_of_valid hparse hvalid] at h
      split at h
      · cases h
      · obtain rfl := Except.ok.inj h
        intro field hfield
        obtain hmet | hnone := Query.mem_noteAll.mp hfield
        · obtain ⟨_, _, _, habsurd⟩ | ⟨consulted, hconsulted, heq⟩ :=
            Query.encounter_cases (Rule.references_resolve hparse hvalid) hmet
          · cases habsurd
          · obtain rfl := Query.Encounter.field.inj heq
            exact Rule.consultedFields_ne hparse field hconsulted
        · cases hnone

namespace Toolchain

/-- What is known of a rule that was compiled twice for a request. -/
structure CompiledFrom (request : IndexRequest) (compiled : CompiledRule) (table : Table String) :
    Prop where
  text : compiled.text = request.text
  category : compiled.category = request.category
  fields_ne : ∀ field ∈ compiled.fields, field ≠ ""
  names : ∀ field, (table.get? field).getD field = field

theorem compiledFrom_of_compileTwice {request : IndexRequest} {compiled : CompiledRule}
    {table : Table String}
    (h : (standard.compileTwice request).outcome = some (.ok (compiled, table))) :
    CompiledFrom request compiled table := by
  unfold compileTwice Pass.followedBy at h
  split at h
  · cases h
  · cases h
  · next fields _ =>
    obtain ⟨rfl, artifact, hartifact, rfl⟩ := Indexer.compileStrictly_ok h
    constructor
    · rfl
    · rfl
    · exact fields_ne_of_compile (Option.some.inj hartifact)
    · intro field
      have hget : (standard.resolver fields).get? field =
          if field ∈ fields then some field else none := Resolver.get?_identity fields field
      rw [hget]
      split
      · rfl
      · rfl

/-- With fields that keep their names it makes no difference which table has them. -/
theorem CompiledFrom.ofFields_eq {request : IndexRequest} {compiled : CompiledRule}
    {table : Table String} (h : CompiledFrom request compiled table) (schema : String) :
    FieldMapping.ofFields compiled.category schema table compiled.fields =
      compiled.contribution schema := by
  rw [CompiledRule.contribution, FieldMapping.ofFields, FieldMapping.ofFields]
  refine List.map_congr_left fun field _ => ?_
  rw [h.names field, Table.get?_empty, Option.getD_none]

end Toolchain

/-! ## Requests -/

namespace Indexer

/-- What a request to index a rule does to a store. -/
inductive Indexed (indexer : Indexer) (mappingsIndex schema time : String)
    (submission : Submission) (before after : Memory) : Prop
  | refused (cause : IndexError)
    (hverdict : indexer.tools.verdict submission.request = some (.error cause))
    (hsame : ∀ name id, after.document? name id = before.document? name id)
  | filed (ready : Memory) (found : Memory.Index) (compiled : CompiledRule) (table : Table String)
    (hverdict : indexer.tools.verdict submission.request = some (.ok compiled))
    (hcompiled : Toolchain.CompiledFrom submission.request compiled table)
    (hsame : ∀ name id, ready.document? name id = before.document? name id)
    (hfound : ready.index? indexer.rulesIndex = some found)
    (hrecorded : Recorded mappingsIndex (compiled.contribution schema)
      (ready.setIndex indexer.rulesIndex (found.put compiled.id (compiled.document time))) after)

section Runs

variable {indexer : Indexer} {mappingsIndex schema time : String} {timeout : Nat}
  {memory : Memory}

theorem leads_prepare {request : IndexRequest} (hvalid : request.validate = .ok ())
    {outcome : Except IndexError (CompiledRule × Table String)}
    (houtcome : (indexer.tools.compileTwice request).outcome = some outcome) :
    (indexer.prepare request).Leads time memory fun prepared after =>
      prepared = outcome ∧ (after.index? indexer.rulesIndex).isSome = true ∧
        ∀ name id, after.document? name id = memory.document? name id := by
  simp only [prepare, hvalid]
  apply Leads.notify
  refine (leads_makeReady _).bind ?_
  rintro _ after ⟨rfl, hindexed, hsame⟩
  apply Leads.notifyAll
  rw [houtcome]
  exact .done ⟨rfl, hindexed, hsame⟩

/-- On a store in memory the write of a rule takes place. -/
theorem leads_persist {found : Memory.Index}
    (hfound : memory.index? indexer.rulesIndex = some found) (compiled : CompiledRule)
    (refresh : RefreshPolicy) :
    (indexer.persist compiled refresh).Leads time memory fun written after =>
      written = .ok (found.acknowledge compiled.id) ∧
        after = memory.setIndex indexer.rulesIndex
          (found.put compiled.id (compiled.document time)) := by
  apply Leads.notify
  apply Leads.askTime
  apply Leads.storeWithin
  rw [Memory.perform_write_of_index _ hfound]
  exact .done ⟨rfl, rfl⟩

theorem leads_recordMappings
    (hkeeper : indexer.keeper = .index mappingsIndex schema timeout)
    (hholds : memory.HoldsMappings mappingsIndex) (compiled : CompiledRule)
    (table : Table String) :
    (indexer.recordMappings compiled table).Leads time memory fun _ after =>
      Recorded mappingsIndex
        (FieldMapping.ofFields compiled.category schema table compiled.fields) memory after := by
  rw [recordMappings, hkeeper]
  apply Leads.notify
  apply Leads.askAbandoned
  refine (leads_keep hholds schema).bind ?_
  rintro _ after ⟨rfl, hrecorded⟩
  exact .done hrecorded

/-- A request to index a rule comes to its end, whether or not its rule is refused. -/
theorem leads_indexRule (htools : indexer.tools = .standard)
    (hkeeper : indexer.keeper = .index mappingsIndex schema timeout)
    (hindices : indexer.rulesIndex ≠ mappingsIndex) (hholds : memory.HoldsMappings mappingsIndex)
    (submission : Submission) :
    (indexer.indexRule submission.request).Leads time memory fun _ after =>
      indexer.Indexed mappingsIndex schema time submission memory after := by
  rw [indexRule_eq]
  obtain ⟨result, hverdict⟩ := Toolchain.exists_verdict submission.request
  rw [← htools] at hverdict
  cases result with
  | error cause =>
    obtain ⟨fault, hinvalid, rfl⟩ | ⟨hvalid, houtcome⟩ := Toolchain.refused_of_verdict hverdict
    · simp only [prepare, hinvalid]
      exact .notify (.done (.refused _ hverdict fun _ _ => rfl))
    · refine (leads_prepare hvalid houtcome).bind ?_
      rintro _ ready ⟨rfl, -, hsame⟩
      exact .notify (.done (.refused _ hverdict hsame))
  | ok compiled =>
    obtain ⟨hvalid, table, houtcome⟩ := Toolchain.compiled_of_verdict hverdict
    have hcompiled := Toolchain.compiledFrom_of_compileTwice (htools ▸ houtcome)
    refine (leads_prepare hvalid houtcome).bind ?_
    rintro _ ready ⟨rfl, hindexed, hsame⟩
    obtain ⟨found, hfound⟩ := Option.isSome_iff_exists.mp hindexed
    refine (leads_persist hfound compiled _).bind ?_
    rintro _ written ⟨rfl, rfl⟩
    have hholds' : (ready.setIndex indexer.rulesIndex
        (found.put compiled.id (compiled.document time))).HoldsMappings mappingsIndex := by
      intro rawField document hdocument
      rw [Memory.document?_setIndex_eq hfound fun heq => absurd heq.symm hindices, hsame]
        at hdocument
      exact hholds rawField document hdocument
    refine (leads_recordMappings hkeeper hholds' compiled table).bind fun _ after hrecorded => ?_
    rw [hcompiled.ofFields_eq schema] at hrecorded
    apply Leads.notify
    exact .done (.filed ready found compiled table hverdict hcompiled hsame hfound hrecorded)

theorem serveAll_cons (indexer : Indexer) (time : String) (order : Order)
    (orders : List (String × Order)) (memory : Memory) :
    indexer.serveAll ((time, order) :: orders) memory =
      indexer.serveAll orders (indexer.serve time order memory).2 :=
  rfl

end Runs

end Indexer

end SigmaCatalog
