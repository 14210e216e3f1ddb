import SigmaCatalog.Proofs.FieldMapping
import SigmaCatalog.Proofs.Store.Memory
import SigmaCatalog.Store.Fleet
import SigmaCatalog.Store.MappingKeeper

/-!
# Concurrent merges

Any number of merges run over one store, and each action of one may come between any two actions of
the others.  A merge writes only over the revision that it has read.  Since no two revisions of a
document bear the same number, what it has read is what is there when the write takes place, and the
document becomes what was there with the mapping merged in.
-/

namespace SigmaCatalog

/-! ## Commits -/

/-- The program whose write in an index took place, and the document that it wrote. -/
def Fleet.Record.commitIn? (index : String) : Fleet.Record → Option (Nat × String)
  | ⟨some number, .write name id _ _ _ _, .ok _⟩ =>
    if name = index then some (number, id) else none
  | _ => none

namespace Fleet

variable {α : Type}

/-- The writes in an index that took place, in their order. -/
def commits (index : String) (fleet : Fleet α) : List (Nat × String) :=
  fleet.history.filterMap (Record.commitIn? index)

def committers (index : String) (fleet : Fleet α) : List Nat :=
  (fleet.commits index).map Prod.fst

variable {fleet : Fleet α} {number : Nat} {call : Call} {next : call.Reply → Program α}

theorem take_store (h : fleet.programs[number]? = some (.act (.store call) next)) (time : String) :
    fleet.take time (.advance number) =
      { memory := (fleet.memory.perform call).2
        programs := fleet.programs.set number (next (fleet.memory.perform call).1)
        history := fleet.history ++ [⟨some number, call, (fleet.memory.perform call).1⟩] } := by
  rw [take, h]
  rfl

theorem take_done {value : α} (h : fleet.programs[number]? = some (.done value)) (time : String) :
    fleet.take time (.advance number) = fleet := by
  rw [take, h]

theorem take_none (h : fleet.programs[number]? = none) (time : String) :
    fleet.take time (.advance number) = fleet := by
  rw [take, h]

theorem result?_eq_some_iff {value : α} :
    fleet.result? number = some value ↔ fleet.programs[number]? = some (.done value) := by
  rw [result?]
  split
  · simp_all
  · simp_all

end Fleet

/-! ## What is left of a merge -/

section Merge

variable (index : String) (timeout : Nat) (mapping : FieldMapping) (attempts : Nat)

/-- What is left of a merge after its write was answered. -/
def afterWrite : Except StoreError Acknowledgement → Program (Except MappingError Unit)
  | .ok _ => .done (.ok ())
  | .error (.conflict _ _) => mergeMapping index timeout mapping attempts
  | .error cause => .done (.error (.store cause))

/-- What is left of a merge that is about to write over what it has read. -/
def beforeWrite (existing : Option StoredDocument) : Program (Except MappingError Unit) :=
  .act (.store (mergeCall index timeout existing (mergeInto mapping existing).1))
    (afterWrite index timeout mapping attempts)

/-- What is left of a merge after its document was read. -/
def afterRead :
    Except StoreError (Option StoredDocument) → Program (Except MappingError Unit)
  | .error cause => .done (.error (.store cause))
  | .ok existing =>
    if (mergeInto mapping existing).2 then
      .act (.notify (.warning .unreadableMapping)) fun _ =>
        beforeWrite index timeout mapping attempts existing
    else beforeWrite index timeout mapping attempts existing

theorem mergeMapping_succ :
    mergeMapping index timeout mapping (attempts + 1) =
      .act (.store (.get index mapping.rawField)) (afterRead index timeout mapping attempts) := by
  rw [mergeMapping]
  refine congrArg (Program.act (.store (.get index mapping.rawField))) (funext fun reply => ?_)
  cases reply with
  | error cause => rfl
  | ok existing =>
    simp only [Program.bind, afterRead]
    by_cases hunreadable : (mergeInto mapping existing).2 = true
    · rw [if_pos hunreadable, if_pos hunreadable]
      refine congrArg (Program.act _) (funext fun _ => ?_)
      refine congrArg (Program.act _) (funext fun reply => ?_)
      cases reply with
      | ok acknowledgement => rfl
      | error cause => cases cause <;> rfl
    · rw [if_neg hunreadable, if_neg hunreadable]
      refine congrArg (Program.act _) (funext fun reply => ?_)
      cases reply with
      | ok acknowledgement => rfl
      | error cause => cases cause <;> rfl

end Merge

/-! ## The invariant -/

/-- The mapping that a document holds, if it can be read. -/
def Memory.mapping? (memory : Memory) (index rawField : String) : Option FieldMapping :=
  (memory.document? index rawField).bind fun document => FieldMapping.ofJson? document.source

/-- Whether every document of an index is that of a mapping and bears the name of its field. -/
def Memory.HoldsMappings (memory : Memory) (index : String) : Prop :=
  ∀ rawField document, memory.document? index rawField = some document →
    ∃ mapping : FieldMapping, document.source = mapping.toJson ∧ mapping.rawField = rawField

/-- The mappings of some commits on a raw field, in the order of the commits. -/
def committedOn (mappings : List FieldMapping) (commits : List (Nat × String))
    (rawField : String) : List FieldMapping :=
  (commits.filter fun commit => commit.2 = rawField).filterMap fun commit => mappings[commit.1]?

/-- What a document ought to hold: the mapping that was there with those committed on the field
merged in one after another. -/
def keptMapping (index : String) (initial : Memory) (mappings : List FieldMapping)
    (commits : List (Nat × String)) (rawField : String) : Option FieldMapping :=
  FieldMapping.mergeOver (initial.mapping? index rawField)
    (committedOn mappings commits rawField)

def mergers (index : String) (timeout : Nat) (memory : Memory) (mappings : List FieldMapping) :
    Fleet (Except MappingError Unit) :=
  { memory
    programs := mappings.map fun mapping => mergeMapping index timeout mapping mergeAttempts }

/-- What a merge knows of the document that it has read: the index numbers the next write higher,
and a document with the same number is still the one that was read. -/
structure Remembers (memory : Memory) (index rawField : String) (existing : StoredDocument) :
    Prop where
  earlier : ∃ found, memory.index? index = some found ∧ existing.seqNo < found.nextSeqNo
  same : ∀ document, memory.document? index rawField = some document →
    document.seqNo = existing.seqNo → document = existing

/-- Where a merge stands, by whether it has committed. -/
inductive Standing (index : String) (timeout : Nat) (memory : Memory) (mapping : FieldMapping)
    (committed : Prop) : Program (Except MappingError Unit) → Prop
  | reading (attempts : Nat) (h : ¬committed) :
    Standing index timeout memory mapping committed (mergeMapping index timeout mapping attempts)
  | writing (attempts : Nat) (existing : Option StoredDocument) (h : ¬committed)
    (hfield : (mergeInto mapping existing).1.rawField = mapping.rawField)
    (hremembers : ∀ document ∈ existing, Remembers memory index mapping.rawField document) :
    Standing index timeout memory mapping committed
      (beforeWrite index timeout mapping attempts existing)
  | finished (h : committed) : Standing index timeout memory mapping committed (.done (.ok ()))
  | failed (cause : MappingError) (h : ¬committed) :
    Standing index timeout memory mapping committed (.done (.error cause))

/-- What holds of merges at any time. -/
structure Merging (index : String) (timeout : Nat) (initial : Memory)
    (mappings : List FieldMapping) (fleet : Fleet (Except MappingError Unit)) : Prop where
  numbered : fleet.memory.Numbered
  kept : ∀ rawField, (fleet.memory.document? index rawField).map StoredDocument.source =
    (keptMapping index initial mappings (fleet.commits index) rawField).map FieldMapping.toJson
  own : ∀ commit ∈ fleet.commits index,
    ∃ mapping, mappings[commit.1]? = some mapping ∧ mapping.rawField = commit.2
  once : (fleet.committers index).Nodup
  size : fleet.programs.length = mappings.length
  standing : ∀ number mapping program, mappings[number]? = some mapping →
    fleet.programs[number]? = some program →
      Standing index timeout fleet.memory mapping (number ∈ fleet.committers index) program

/-! ## Documents and mappings -/

section Documents

variable {index : String} {memory : Memory} {found : Memory.Index}

/-- What is known of a document outlasts every call. -/
theorem Remembers.step {after : Memory} {call : Call} {reply : call.Reply} {rawField : String}
    {existing : StoredDocument} (h : Remembers memory index rawField existing)
    (heffect : memory.Effect call reply after) : Remembers after index rawField existing := by
  have hgiven : memory.Given index existing.seqNo := h.earlier
  constructor
  · exact hgiven.step heffect
  · intro document hdocument hseqNo
    cases htouched : Memory.touches index rawField call reply with
    | true => exact absurd (hseqNo ▸ hgiven) (heffect.fresh htouched hdocument)
    | false =>
      rw [heffect.document?_eq htouched] at hdocument
      exact h.same document hdocument hseqNo

theorem Remembers.put {rawField : String} {existing : StoredDocument}
    (h : Remembers memory index rawField existing) (hfound : memory.index? index = some found)
    (id : String) (body : Json) :
    Remembers (memory.setIndex index (found.put id body)) index rawField existing :=
  h.step (@Memory.Effect.written memory index id body none 0 .none found hfound rfl)

theorem Standing.put {timeout : Nat} {mapping : FieldMapping} {committed : Prop}
    {program : Program (Except MappingError Unit)}
    (h : Standing index timeout memory mapping committed program)
    (hfound : memory.index? index = some found) (id : String) (body : Json) :
    Standing index timeout (memory.setIndex index (found.put id body)) mapping committed
      program := by
  cases h with
  | reading attempts hnot => exact .reading attempts hnot
  | writing attempts existing hnot hfield hremembers =>
    exact .writing attempts existing hnot hfield fun document hdocument =>
      (hremembers document hdocument).put hfound id body
  | finished hcommitted => exact .finished hcommitted
  | failed cause hnot => exact .failed cause hnot

theorem Standing.eq_done_iff {timeout : Nat} {mapping : FieldMapping} {committed : Prop}
    {program : Program (Except MappingError Unit)}
    (h : Standing index timeout memory mapping committed program) :
    program = .done (.ok ()) ↔ committed := by
  cases h with
  | reading attempts hnot =>
    refine iff_of_false (fun heq => ?_) hnot
    cases attempts with
    | zero => cases heq
    | succ attempts =>
      rw [mergeMapping_succ] at heq
      cases heq
  | writing attempts existing hnot => exact iff_of_false (fun heq => by cases heq) hnot
  | finished hcommitted => exact iff_of_true rfl hcommitted
  | failed cause hnot => exact iff_of_false (fun heq => by cases heq) hnot

theorem remembers_of_read {rawField : String} {document : StoredDocument}
    (hnumbered : memory.Numbered) (hdocument : memory.document? index rawField = some document) :
    Remembers memory index rawField document := by
  constructor
  · exact hnumbered.given hdocument
  · intro other hother _
    exact Option.some.inj (hother.symm.trans hdocument)

/-- Where a write over what was read may take place, what was read is what is there. -/
theorem document?_of_permits {rawField : String} {existing : Option StoredDocument}
    (hremembers : ∀ document ∈ existing, Remembers memory index rawField document)
    (hpermits : Memory.permits (some (.asRead existing)) (memory.document? index rawField) = true) :
    memory.document? index rawField = existing := by
  cases existing with
  | none => exact Option.isNone_iff_eq_none.mp hpermits
  | some read =>
    cases hdocument : memory.document? index rawField with
    | none =>
      rw [hdocument] at hpermits
      cases hpermits
    | some document =>
      rw [hdocument] at hpermits
      have hseqNo : document.seqNo = read.seqNo :=
        eq_of_beq (Bool.and_eq_true_iff.mp hpermits).1
      exact congrArg some ((hremembers read rfl).same document hdocument hseqNo)

theorem mergeInto_of_source {existing : Option StoredDocument} {current : Option FieldMapping}
    (h : existing.map StoredDocument.source = current.map FieldMapping.toJson)
    (mapping : FieldMapping) : mergeInto mapping existing = (mapping.mergeOnto current, false) := by
  cases existing with
  | none =>
    cases current with
    | none => rfl
    | some previous => cases h
  | some document =>
    cases current with
    | none => cases h
    | some previous =>
      have hsource : document.source = previous.toJson := Option.some.inj h
      simp only [mergeInto, hsource, FieldMapping.ofJson?_toJson]
      rfl

theorem mapping?_of_holds {initial : Memory} (h : initial.HoldsMappings index) (rawField : String) :
    (initial.document? index rawField).map StoredDocument.source =
        (initial.mapping? index rawField).map FieldMapping.toJson ∧
      ∀ mapping ∈ initial.mapping? index rawField, mapping.rawField = rawField := by
  cases hdocument : initial.document? index rawField with
  | none => simp [Memory.mapping?, hdocument]
  | some document =>
    obtain ⟨mapping, hsource, hfield⟩ := h rawField document hdocument
    simp [Memory.mapping?, hdocument, hsource, FieldMapping.ofJson?_toJson, hfield]

/-- Writing the document of a mapping leaves an index one that holds mappings. -/
theorem Memory.HoldsMappings.write (h : memory.HoldsMappings index) (mapping : FieldMapping)
    (condition : Option Precondition) (timeout : Nat) (refresh : RefreshPolicy) :
    (memory.perform (.write index mapping.rawField mapping.toJson condition timeout
      refresh)).2.HoldsMappings index := by
  obtain ⟨found, hfound, -, hperform⟩ | ⟨cause, hperform⟩ :=
    memory.perform_write index mapping.rawField mapping.toJson condition timeout refresh
  · rw [hperform]
    intro rawField document hdocument
    rw [Memory.document?_put _ hfound] at hdocument
    split at hdocument
    · next heq =>
      obtain rfl := Option.some.inj hdocument
      exact ⟨mapping, rfl, heq.symm⟩
    · exact h rawField document hdocument
  · rw [hperform]
    exact h

end Documents

/-! ## Commits on a field -/

section Commits

variable {mappings : List FieldMapping} {commits : List (Nat × String)}

theorem keptMapping_append_self (index : String) (initial : Memory) {number : Nat}
    {mapping : FieldMapping} (h : mappings[number]? = some mapping) (rawField : String) :
    keptMapping index initial mappings (commits ++ [(number, rawField)]) rawField =
      some (mapping.mergeOnto (keptMapping index initial mappings commits rawField)) := by
  have hcommitted : committedOn mappings (commits ++ [(number, rawField)]) rawField =
      committedOn mappings commits rawField ++ [mapping] := by
    simp [committedOn, h]
  rw [keptMapping, hcommitted, FieldMapping.mergeOver_append, ← keptMapping]

theorem keptMapping_append_other (index : String) (initial : Memory) (number : Nat)
    {rawField other : String} (h : rawField ≠ other) :
    keptMapping index initial mappings (commits ++ [(number, rawField)]) other =
      keptMapping index initial mappings commits other := by
  have hcommitted : committedOn mappings (commits ++ [(number, rawField)]) other =
      committedOn mappings commits other := by
    simp [committedOn, h]
  rw [keptMapping, hcommitted, ← keptMapping]

theorem rawField_of_mem_committedOn {rawField : String}
    (h : ∀ commit ∈ commits,
      ∃ mapping, mappings[commit.1]? = some mapping ∧ mapping.rawField = commit.2) :
    ∀ mapping ∈ committedOn mappings commits rawField, mapping.rawField = rawField := by
  intro mapping hmapping
  obtain ⟨commit, hcommit, hget⟩ := List.mem_filterMap.mp hmapping
  obtain ⟨hmem, hfield⟩ := List.mem_filter.mp hcommit
  obtain ⟨own, hown, hownField⟩ := h commit hmem
  obtain rfl := Option.some.inj (hget.symm.trans hown)
  exact hownField.trans (of_decide_eq_true hfield)

variable {α : Type} (index : String) (memory : Memory) (programs : List (Program α))
  (history : List Fleet.Record)

theorem commits_append (record : Fleet.Record) :
    Fleet.commits index { memory, programs, history := history ++ [record] } =
      Fleet.commits index { memory, programs, history } ++ (record.commitIn? index).toList := by
  cases hrecord : record.commitIn? index <;> simp [Fleet.commits, hrecord]

end Commits

/-! ## Steps -/

namespace Merging

variable {index : String} {timeout : Nat} {initial : Memory} {mappings : List FieldMapping}
  {fleet : Fleet (Except MappingError Unit)}

theorem exists_mapping (h : Merging index timeout initial mappings fleet) {number : Nat}
    {program : Program (Except MappingError Unit)}
    (hprogram : fleet.programs[number]? = some program) :
    ∃ mapping, mappings[number]? = some mapping := by
  have hlt := (List.getElem?_eq_some_iff.mp hprogram).1
  exact ⟨_, List.getElem?_eq_getElem (Nat.lt_of_lt_of_eq hlt h.size)⟩

theorem rawField_kept (h : Merging index timeout initial mappings fleet)
    (hinitial : initial.HoldsMappings index) (rawField : String) :
    ∀ mapping ∈ keptMapping index initial mappings (fleet.commits index) rawField,
      mapping.rawField = rawField :=
  FieldMapping.rawField_mergeOver (mapping?_of_holds hinitial rawField).2
    (rawField_of_mem_committedOn h.own)

theorem mergeInto_document (h : Merging index timeout initial mappings fleet)
    (rawField : String) (mapping : FieldMapping) :
    mergeInto mapping (fleet.memory.document? index rawField) =
      (mapping.mergeOnto (keptMapping index initial mappings (fleet.commits index) rawField),
        false) :=
  mergeInto_of_source (h.kept rawField) mapping

theorem begin (hinitial : initial.HoldsMappings index) (hnumbered : initial.Numbered) :
    Merging index timeout initial mappings (mergers index timeout initial mappings) where
  numbered := hnumbered
  kept rawField := (mapping?_of_holds hinitial rawField).1
  own commit hcommit := by cases hcommit
  once := List.nodup_nil
  size := List.length_map _
  standing number mapping program hmapping hprogram := by
    have hprogram : (mappings[number]?).map (fun mapping =>
        mergeMapping index timeout mapping mergeAttempts) = some program :=
      List.getElem?_map ▸ hprogram
    rw [hmapping] at hprogram
    obtain rfl := Option.some.inj hprogram
    exact .reading mergeAttempts (fun hmem => by cases hmem)

theorem getElem?_moved {α : Type} {programs : List (Program α)} {number other : Nat}
    {program left : Program α} (h : (programs.set number program)[other]? = some left) :
    (other = number ∧ left = program) ∨ (other ≠ number ∧ programs[other]? = some left) := by
  rw [List.getElem?_set] at h
  by_cases heq : number = other
  · rw [if_pos heq] at h
    split at h
    · exact .inl ⟨heq.symm, (Option.some.inj h).symm⟩
    · cases h
  · rw [if_neg heq] at h
    exact .inr ⟨Ne.symm heq, h⟩

/-- A call that commits nothing and changes nothing in the store moves one merge on. -/
theorem quiet (h : Merging index timeout initial mappings fleet) {number : Nat}
    {mapping : FieldMapping} {program : Program (Except MappingError Unit)}
    (hmapping : mappings[number]? = some mapping)
    (hstanding : Standing index timeout fleet.memory mapping (number ∈ fleet.committers index)
      program)
    {record : Fleet.Record} (hrecord : record.commitIn? index = none) :
    Merging index timeout initial mappings
      { memory := fleet.memory
        programs := fleet.programs.set number program
        history := fleet.history ++ [record] } := by
  have hcommits : Fleet.commits index
      { memory := fleet.memory
        programs := fleet.programs.set number program
        history := fleet.history ++ [record] } = fleet.commits index := by
    rw [commits_append, hrecord]
    exact List.append_nil _
  constructor
  · exact h.numbered
  · rw [hcommits]
    exact h.kept
  · rw [hcommits]
    exact h.own
  · rw [Fleet.committers, hcommits]
    exact h.once
  · exact (List.length_set ..).trans h.size
  · intro other otherMapping left hother hleft
    rw [Fleet.committers, hcommits]
    obtain ⟨rfl, rfl⟩ | ⟨-, hleft⟩ := getElem?_moved hleft
    · obtain rfl := Option.some.inj (hmapping.symm.trans hother)
      exact hstanding
    · exact h.standing other otherMapping left hother hleft

/-- A write over what is there commits one merge. -/
theorem commit (h : Merging index timeout initial mappings fleet) {number : Nat}
    {mapping : FieldMapping}
    (hmapping : mappings[number]? = some mapping) (hnot : number ∉ fleet.committers index)
    {found : Memory.Index} (hfound : fleet.memory.index? index = some found)
    {record : Fleet.Record} (hrecord : record.commitIn? index = some (number, mapping.rawField)) :
    Merging index timeout initial mappings
      { memory := fleet.memory.setIndex index (found.put mapping.rawField
          (mapping.mergeOnto (keptMapping index initial mappings (fleet.commits index)
            mapping.rawField)).toJson)
        programs := fleet.programs.set number (.done (.ok ()))
        history := fleet.history ++ [record] } := by
  have hcommits : ∀ memory : Memory, Fleet.commits index
      { memory
        programs := fleet.programs.set number (.done (.ok ()))
        history := fleet.history ++ [record] } =
      fleet.commits index ++ [(number, mapping.rawField)] := by
    intro memory
    rw [commits_append, hrecord]
    rfl
  constructor
  · exact h.numbered.setIndex ((h.numbered index found hfound).put _ _) index
  · intro rawField
    rw [hcommits, Memory.document?_put _ hfound]
    by_cases heq : rawField = mapping.rawField
    · subst heq
      rw [if_pos rfl, keptMapping_append_self index initial hmapping]
      rfl
    · rw [if_neg heq, keptMapping_append_other index initial number (Ne.symm heq)]
      exact h.kept rawField
  · rw [hcommits]
    intro commit hcommit
    rcases List.mem_append.mp hcommit with hearlier | hlast
    · exact h.own commit hearlier
    · obtain rfl := List.mem_singleton.mp hlast
      exact ⟨mapping, hmapping, rfl⟩
  · rw [Fleet.committers, hcommits, List.map_append]
    refine List.nodup_append.mpr ⟨h.once, List.pairwise_singleton _ _, ?_⟩
    intro earlier hearlier last hlast heq
    obtain rfl := List.mem_singleton.mp hlast
    exact hnot (heq ▸ hearlier)
  · exact (List.length_set ..).trans h.size
  · intro other otherMapping left hother hleft
    rw [Fleet.committers, hcommits, List.map_append]
    obtain ⟨rfl, rfl⟩ | ⟨hne, hleft⟩ := getElem?_moved hleft
    · exact .finished (List.mem_append_right _ (List.mem_singleton_self _))
    · have hmem : (other ∈ (fleet.commits index).map Prod.fst ++ [number]) =
          (other ∈ fleet.committers index) := by
        simp [hne, Fleet.committers]
      change Standing _ _ _ _ (other ∈ (fleet.commits index).map Prod.fst ++ [number]) _
      rw [hmem]
      exact (h.standing other otherMapping left hother hleft).put hfound _ _

theorem read (h : Merging index timeout initial mappings fleet)
    (hinitial : initial.HoldsMappings index) {number attempts : Nat} {mapping : FieldMapping}
    (hmapping : mappings[number]? = some mapping) (hnot : number ∉ fleet.committers index)
    (hprogram : fleet.programs[number]? =
      some (mergeMapping index timeout mapping (attempts + 1))) (time : String) :
    Merging index timeout initial mappings (fleet.take time (.advance number)) := by
  rw [mergeMapping_succ] at hprogram
  rw [Fleet.take_store hprogram, Memory.perform_get]
  refine h.quiet hmapping ?_ rfl
  cases hfound : fleet.memory.index? index with
  | none => exact .failed _ hnot
  | some found =>
    have hdocument : fleet.memory.document? index mapping.rawField =
        found.documents.get? mapping.rawField := by
      rw [Memory.document?, hfound]
      rfl
    have hinto := h.mergeInto_document mapping.rawField mapping
    -- What was read is a mapping, so that there is nothing to warn of.
    have hleft : afterRead index timeout mapping attempts
        (.ok (found.documents.get? mapping.rawField)) =
        beforeWrite index timeout mapping attempts
          (fleet.memory.document? index mapping.rawField) := by
      rw [← hdocument, afterRead, hinto]
      rfl
    refine hleft.symm ▸ .writing attempts _ hnot ?_ fun document hread =>
      remembers_of_read h.numbered hread
    rw [hinto]
    exact FieldMapping.rawField_mergeOnto (h.rawField_kept hinitial mapping.rawField)

/-- A write that takes place finds what was read before, since its number is still there, and so
merges its mapping into what is kept. -/
theorem write (h : Merging index timeout initial mappings fleet) {number attempts : Nat}
    {mapping : FieldMapping} {existing : Option StoredDocument}
    (hmapping : mappings[number]? = some mapping) (hnot : number ∉ fleet.committers index)
    (hfield : (mergeInto mapping existing).1.rawField = mapping.rawField)
    (hremembers : ∀ document ∈ existing,
      Remembers fleet.memory index mapping.rawField document)
    (hprogram : fleet.programs[number]? =
      some (beforeWrite index timeout mapping attempts existing)) (time : String) :
    Merging index timeout initial mappings (fleet.take time (.advance number)) := by
  rw [beforeWrite] at hprogram
  generalize hmerged : (mergeInto mapping existing).1 = merged at hprogram hfield
  have hwrite : fleet.programs[number]? = some (.act
      (.store (.write index merged.rawField merged.toJson (some (.asRead existing)) timeout .none))
      (afterWrite index timeout mapping attempts)) := hprogram
  rw [Fleet.take_store hwrite, hfield]
  obtain ⟨found, hfound, hpermits, hperform⟩ | ⟨cause, hperform⟩ :=
    fleet.memory.perform_write index mapping.rawField merged.toJson (some (.asRead existing))
      timeout .none
  · rw [hperform]
    have hdocument : fleet.memory.document? index mapping.rawField = existing := by
      refine document?_of_permits hremembers ?_
      rw [Memory.document?, hfound]
      exact hpermits
    have hinto := h.mergeInto_document mapping.rawField mapping
    rw [hdocument] at hinto
    rw [hinto] at hmerged
    rw [← hmerged]
    exact h.commit hmapping hnot hfound (if_pos rfl)
  · rw [hperform]
    refine h.quiet hmapping ?_ rfl
    cases cause with
    | conflict name id => exact .reading attempts hnot
    | _ => exact .failed _ hnot

/-- Whatever merge acts next, the invariant is kept. -/
theorem advance (h : Merging index timeout initial mappings fleet)
    (hinitial : initial.HoldsMappings index) (time : String) (number : Nat) :
    Merging index timeout initial mappings (fleet.take time (.advance number)) := by
  cases hprogram : fleet.programs[number]? with
  | none =>
    rw [Fleet.take_none hprogram]
    exact h
  | some program =>
    obtain ⟨mapping, hmapping⟩ := h.exists_mapping hprogram
    cases h.standing number mapping program hmapping hprogram with
    | reading attempts hnot =>
      cases attempts with
      | zero =>
        rw [Fleet.take_done hprogram]
        exact h
      | succ attempts => exact h.read hinitial hmapping hnot hprogram time
    | writing attempts existing hnot hfield hremembers =>
      exact h.write hmapping hnot hfield hremembers hprogram time
    | finished hcommitted =>
      rw [Fleet.take_done hprogram]
      exact h
    | failed cause hnot =>
      rw [Fleet.take_done hprogram]
      exact h

theorem advanceAll (h : Merging index timeout initial mappings fleet)
    (hinitial : initial.HoldsMappings index) (time : String) (turns : List Nat) :
    Merging index timeout initial mappings (fleet.takeAll time (turns.map .advance)) := by
  induction turns generalizing fleet with
  | nil => exact h
  | cons number turns ih => exact ih (h.advance hinitial time number)

/-! ## What merges have done -/

/-- The documents can serve later merges. -/
theorem holdsMappings (h : Merging index timeout initial mappings fleet)
    (hinitial : initial.HoldsMappings index) : fleet.memory.HoldsMappings index := by
  intro rawField document hdocument
  have hkept := h.kept rawField
  rw [hdocument, Option.map_some] at hkept
  obtain ⟨mapping, hmapping, hsource⟩ := Option.map_eq_some_iff.mp hkept.symm
  exact ⟨mapping, hsource.symm, h.rawField_kept hinitial rawField mapping hmapping⟩

/-- A merge has ended well exactly when it has committed. -/
theorem result?_eq_ok_iff (h : Merging index timeout initial mappings fleet) (number : Nat) :
    fleet.result? number = some (.ok ()) ↔ number ∈ fleet.committers index := by
  rw [Fleet.result?_eq_some_iff]
  constructor
  · intro hprogram
    obtain ⟨mapping, hmapping⟩ := h.exists_mapping hprogram
    exact (h.standing number mapping _ hmapping hprogram).eq_done_iff.mp rfl
  · intro hmem
    obtain ⟨commit, hcommit, rfl⟩ := List.mem_map.mp hmem
    obtain ⟨mapping, hmapping, -⟩ := h.own commit hcommit
    have hlt := (List.getElem?_eq_some_iff.mp hmapping).1
    obtain ⟨program, hprogram⟩ : ∃ program, fleet.programs[commit.1]? = some program :=
      ⟨_, List.getElem?_eq_getElem (Nat.lt_of_lt_of_eq hlt h.size.symm)⟩
    rw [hprogram, (h.standing commit.1 mapping program hmapping hprogram).eq_done_iff.mpr hmem]

end Merging

/-- No mapping is lost.  In whatever order merges act, every document holds what was there with the
mappings committed on its field merged in, in the order of the commits; no merge commits twice, and
a merge ends well exactly when it has committed. -/
theorem no_mapping_lost (index : String) (timeout : Nat) (time : String)
    (mappings : List FieldMapping) (calls : List Call) (turns : List Nat)
    (hinitial : (Memory.empty.performAll calls).HoldsMappings index) :
    let initial := Memory.empty.performAll calls
    let fleet := (mergers index timeout initial mappings).takeAll time (turns.map .advance)
    (∀ rawField, (fleet.memory.document? index rawField).map StoredDocument.source =
      (keptMapping index initial mappings (fleet.commits index) rawField).map
        FieldMapping.toJson) ∧
    (∀ rawField, ∀ merged ∈ keptMapping index initial mappings (fleet.commits index) rawField,
      (∀ logType, logType ∈ TextSet.members merged.logTypes ↔
        (∃ mapping ∈ initial.mapping? index rawField,
          logType ∈ TextSet.members mapping.logTypes) ∨
        ∃ mapping ∈ committedOn mappings (fleet.commits index) rawField,
          logType ∈ TextSet.members mapping.logTypes) ∧
      ∀ schema, merged.schemaFields.get? schema =
        ((committedOn mappings (fleet.commits index) rawField).reverse.findSome? fun mapping =>
          mapping.schemaFields.get? schema).or
            ((initial.mapping? index rawField).bind fun mapping =>
              mapping.schemaFields.get? schema)) ∧
    (∀ commit ∈ fleet.commits index,
      ∃ mapping, mappings[commit.1]? = some mapping ∧ mapping.rawField = commit.2) ∧
    (fleet.committers index).Nodup ∧
    ∀ number, fleet.result? number = some (.ok ()) ↔ number ∈ fleet.committers index := by
  intro initial fleet
  have hnumbered : initial.Numbered := Memory.numbered_empty.performAll calls
  have hmerging : Merging index timeout initial mappings fleet :=
    (Merging.begin hinitial hnumbered).advanceAll hinitial time turns
  refine ⟨hmerging.kept, ?_, hmerging.own, hmerging.once, hmerging.result?_eq_ok_iff⟩
  intro rawField merged hmerged
  constructor
  · exact FieldMapping.logTypes_mergeOver hmerged
  · exact FieldMapping.schemaFields_mergeOver hmerged

/-- A mapping of the field `EventID` under one schema, for rules of one log type. -/
def eventMapping (name logType : String) : FieldMapping where
  rawField := "EventID"
  schemaFields := Table.ofList [("ecs", name)]
  logTypes := TextSet.ofList [logType]

/-- A store with the document of one mapping. -/
def contendedCalls : List Call :=
  [.createIndex "mappings" .null, mergeCall "mappings" 0 none (eventMapping "event.id" "dns")]

/-- Two merges that have both read the document before either of them writes it. -/
def contendedMerges : Fleet (Except MappingError Unit) :=
  (mergers "mappings" 0 (Memory.empty.performAll contendedCalls)
    [eventMapping "event.code" "process", eventMapping "event.action" "registry"]).takeAll ""
      ([0, 1, 0, 1, 1, 1].map .advance)

theorem no_mapping_lost_contended :
    (Memory.empty.performAll contendedCalls).HoldsMappings "mappings" ∧
      contendedMerges.commits "mappings" = [(0, "EventID"), (1, "EventID")] ∧
      (contendedMerges.memory.document? "mappings" "EventID").map StoredDocument.source =
        some (((eventMapping "event.id" "dns").merge
          (eventMapping "event.code" "process")).merge
            (eventMapping "event.action" "registry")).toJson ∧
      contendedMerges.result? 0 = some (.ok ()) ∧ contendedMerges.result? 1 = some (.ok ()) := by
  have hcreated : (Memory.empty.perform (.createIndex "mappings" .null)).2.HoldsMappings
      "mappings" := by
    intro rawField document hdocument
    cases hdocument
  have hinitial : (Memory.empty.performAll contendedCalls).HoldsMappings "mappings" :=
    hcreated.write (eventMapping "event.id" "dns") (some .absent) 0 .none
  have hcommits : contendedMerges.commits "mappings" = [(0, "EventID"), (1, "EventID")] := by
    decide +kernel
  obtain ⟨hsource, -, -, -, hresult⟩ :=
    no_mapping_lost "mappings" 0 "" [eventMapping "event.code" "process",
      eventMapping "event.action" "registry"] contendedCalls [0, 1, 0, 1, 1, 1] hinitial
  have hinitialMapping : (Memory.empty.performAll contendedCalls).mapping? "mappings" "EventID" =
      some (eventMapping "event.id" "dns") := by
    decide +kernel
  refine ⟨hinitial, hcommits, ?_, ?_, ?_⟩
  · have hkept := hsource "EventID"
    rw [keptMapping, hinitialMapping] at hkept
    change (contendedMerges.memory.document? "mappings" "EventID").map StoredDocument.source =
      (FieldMapping.mergeOver _ (committedOn _ (contendedMerges.commits "mappings") _)).map _
      at hkept
    rw [hcommits] at hkept
    exact hkept
  · exact (hresult 0).mpr (by decide +kernel)
  · exact (hresult 1).mpr (by decide +kernel)

end SigmaCatalog
