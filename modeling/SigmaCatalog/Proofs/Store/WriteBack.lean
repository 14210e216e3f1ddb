import SigmaCatalog.Proofs.Store.Attempts

/-!
# Merges write back what they have read

No two documents of an index bear the same number, and none ever bears a number that was read from
another.  So a merge that would write elsewhere than it has read meets a conflict, and a merge that
ends well has merged its mapping into the document of the field and changed nothing else, whatever
other clients do in between.
-/

namespace SigmaCatalog

open Program

/-! ## Numbers of one document -/

namespace Memory

/-- Whether no two documents of an index bear the same number. -/
def Distinct (memory : Memory) : Prop :=
  ∀ index id other document another, memory.document? index id = some document →
    memory.document? index other = some another → document.seqNo = another.seqNo → id = other

section Distinct

variable {memory after : Memory} {call : Call} {reply : call.Reply}

theorem touches_unique {index id other : String} (h : touches index id call reply = true)
    (hother : touches index other call reply = true) : id = other := by
  unfold touches at h hother
  split at h
  · exact (of_decide_eq_true h).2.symm.trans (of_decide_eq_true hother).2
  · exact (of_decide_eq_true h).2.symm.trans (of_decide_eq_true hother).2
  · cases h

theorem Distinct.step (h : memory.Distinct) (hnumbered : memory.Numbered)
    (heffect : memory.Effect call reply after) : after.Distinct := by
  intro index id other document another hdocument hanother hseqNo
  -- At most one of the two documents is new, and a new one has no number of an old one.
  cases hid : touches index id call reply with
  | true =>
    cases hother : touches index other call reply with
    | true => exact touches_unique hid hother
    | false =>
      rw [heffect.document?_eq hother] at hanother
      exact absurd (hseqNo ▸ hnumbered.given hanother) (heffect.fresh hid hdocument)
  | false =>
    have hearlier := (heffect.document?_eq hid).symm.trans hdocument
    cases hother : touches index other call reply with
    | true => exact absurd (hseqNo ▸ hnumbered.given hearlier) (heffect.fresh hother hanother)
    | false =>
      rw [heffect.document?_eq hother] at hanother
      exact h index id other document another hearlier hanother hseqNo

theorem distinct_empty : empty.Distinct := by
  intro index id other document another hdocument
  cases hdocument

theorem Distinct.performAll (h : memory.Distinct) (hnumbered : memory.Numbered)
    (calls : List Call) : (memory.performAll calls).Distinct := by
  induction calls generalizing memory with
  | nil => exact h
  | cons call calls ih =>
    exact ih (h.step hnumbered (memory.effect call)) (hnumbered.perform call)

end Distinct

end Memory

/-! ## What a merge knows -/

/-- What a merge knows of a document that it has read in the place of a field, when other documents
may be anything: none of them bears its number. -/
structure Recalls (memory : Memory) (index rawField : String) (existing : StoredDocument) : Prop
    extends Remembers memory index rawField existing where
  alone : ∀ id document, memory.document? index id = some document →
    document.seqNo = existing.seqNo → id = rawField

/-- Where a merge stands that has written nothing. -/
inductive Underway (index : String) (timeout : Nat) (memory : Memory) (mapping : FieldMapping) :
    Program (Except MappingError Unit) → Prop
  | reading (attempts : Nat) :
    Underway index timeout memory mapping (mergeMapping index timeout mapping attempts)
  | warning (attempts : Nat) (existing : Option StoredDocument)
    (hrecalls : ∀ document ∈ existing, Recalls memory index mapping.rawField document) :
    Underway index timeout memory mapping (.act (.notify (.warning .unreadableMapping)) fun _ =>
      beforeWrite index timeout mapping attempts existing)
  | writing (attempts : Nat) (existing : Option StoredDocument)
    (hrecalls : ∀ document ∈ existing, Recalls memory index mapping.rawField document) :
    Underway index timeout memory mapping (beforeWrite index timeout mapping attempts existing)
  | failed (cause : MappingError) : Underway index timeout memory mapping (.done (.error cause))

/-- Whether between two states of a store a mapping has been merged into its document, and no other
document has changed. -/
structure MergedInto (index : String) (mapping : FieldMapping) (before after : Memory) : Prop where
  merged : ∃ merged, after.mapping? index mapping.rawField = some merged ∧
    merged = mapping.mergeOnto (before.mapping? index mapping.rawField) ∧ merged.Includes mapping
  others : ∀ name id, ¬(name = index ∧ id = mapping.rawField) →
    after.document? name id = before.document? name id

section Knowledge

variable {index : String} {timeout : Nat} {memory after : Memory} {mapping : FieldMapping}
  {call : Call} {reply : call.Reply}

theorem Recalls.step {rawField : String} {existing : StoredDocument}
    (h : Recalls memory index rawField existing) (heffect : memory.Effect call reply after) :
    Recalls after index rawField existing := by
  have hgiven : memory.Given index existing.seqNo := h.earlier
  constructor
  · exact h.toRemembers.step heffect
  · intro id document hdocument hseqNo
    cases htouched : Memory.touches index id call reply with
    | true => exact absurd (hseqNo ▸ hgiven) (heffect.fresh htouched hdocument)
    | false =>
      rw [heffect.document?_eq htouched] at hdocument
      exact h.alone id document hdocument hseqNo

theorem recalls_of_read {rawField : String} {document : StoredDocument}
    (hnumbered : memory.Numbered) (hdistinct : memory.Distinct)
    (hdocument : memory.document? index rawField = some document) :
    Recalls memory index rawField document := by
  constructor
  · exact remembers_of_read hnumbered hdocument
  · intro id other hother hseqNo
    exact hdistinct index id rawField other document hother hdocument hseqNo

theorem Underway.step {program : Program (Except MappingError Unit)}
    (h : Underway index timeout memory mapping program)
    (heffect : memory.Effect call reply after) : Underway index timeout after mapping program := by
  cases h with
  | reading attempts => exact .reading attempts
  | warning attempts existing hrecalls =>
    exact .warning attempts existing fun document hread => (hrecalls document hread).step heffect
  | writing attempts existing hrecalls =>
    exact .writing attempts existing fun document hread => (hrecalls document hread).step heffect
  | failed cause => exact .failed cause

theorem Underway.ne_ok {program : Program (Except MappingError Unit)}
    (h : Underway index timeout memory mapping program) : program ≠ .done (.ok ()) := by
  cases h with
  | reading attempts =>
    cases attempts with
    | zero => exact fun heq => by cases heq
    | succ attempts =>
      rw [mergeMapping_succ]
      exact fun heq => by cases heq
  | warning => exact fun heq => by cases heq
  | writing => exact fun heq => by cases heq
  | failed => exact fun heq => by cases heq

theorem Underway.afterRead (attempts : Nat) {reply : Except StoreError (Option StoredDocument)}
    (hrecalls : ∀ existing, reply = .ok existing →
      ∀ document ∈ existing, Recalls memory index mapping.rawField document) :
    Underway index timeout memory mapping (afterRead index timeout mapping attempts reply) := by
  cases reply with
  | error cause => exact .failed _
  | ok existing =>
    rw [SigmaCatalog.afterRead]
    split
    · exact .warning attempts existing (hrecalls existing rfl)
    · exact .writing attempts existing (hrecalls existing rfl)

theorem Underway.afterRefusal (attempts : Nat) (cause : StoreError) :
    Underway index timeout memory mapping
      (afterWrite index timeout mapping attempts (.error cause)) := by
  cases cause with
  | conflict name id => exact .reading attempts
  | _ => exact .failed _

/-- A write that may take place goes where its merge has read, and what was read is there. -/
theorem found_of_permits {existing : Option StoredDocument}
    (hrecalls : ∀ document ∈ existing, Recalls memory index mapping.rawField document)
    (hpermits : Memory.permits (some (.asRead existing))
      (memory.document? index (mergeInto mapping existing).1.rawField) = true) :
    (mergeInto mapping existing).1.rawField = mapping.rawField ∧
      memory.document? index mapping.rawField = existing := by
  have hremembers : ∀ document ∈ existing, Remembers memory index mapping.rawField document :=
    fun document hread => (hrecalls document hread).toRemembers
  have hfield : (mergeInto mapping existing).1.rawField = mapping.rawField := by
    cases existing with
    | none => rfl
    | some read =>
      cases hdocument : memory.document? index (mergeInto mapping (some read)).1.rawField with
      | none =>
        rw [hdocument] at hpermits
        cases hpermits
      | some document =>
        -- The number that was read is found only in the place where it was read.
        rw [hdocument] at hpermits
        have hseqNo : document.seqNo = read.seqNo :=
          eq_of_beq (Bool.and_eq_true_iff.mp hpermits).1
        exact (hrecalls read rfl).alone _ document hdocument hseqNo
  rw [hfield] at hpermits
  exact ⟨hfield, document?_of_permits hremembers hpermits⟩

/-- Writing what a mapping gives with what is there merges it. -/
theorem mergedInto_put {found : Memory.Index} (hfound : memory.index? index = some found)
    (mapping : FieldMapping) :
    MergedInto index mapping memory (memory.setIndex index (found.put mapping.rawField
      (mapping.mergeOnto (memory.mapping? index mapping.rawField)).toJson)) := by
  constructor
  · refine ⟨_, ?_, rfl, FieldMapping.includes_mergeOnto mapping _⟩
    rw [Memory.mapping?, Memory.document?_put _ hfound, if_pos rfl]
    exact FieldMapping.ofJson?_toJson _
  · intro name id hother
    refine Memory.document?_setIndex_eq hfound fun hname => ?_
    rw [Memory.Index.put, Table.get?_insert, if_neg fun hid => hother ⟨hname, hid⟩]

/-- A write that takes place merges the mapping into what is there. -/
theorem mergedInto_of_write {existing : Option StoredDocument} {found : Memory.Index}
    (hrecalls : ∀ document ∈ existing, Recalls memory index mapping.rawField document)
    (hfound : memory.index? index = some found)
    (hpermits : Memory.permits (some (.asRead existing))
      (found.documents.get? (mergeInto mapping existing).1.rawField) = true) :
    MergedInto index mapping memory
      (memory.setIndex index (found.put (mergeInto mapping existing).1.rawField
        (mergeInto mapping existing).1.toJson)) := by
  have hget : ∀ id, memory.document? index id = found.documents.get? id := by
    intro id
    rw [Memory.document?, hfound]
    rfl
  rw [← hget] at hpermits
  obtain ⟨hfield, hdocument⟩ := found_of_permits hrecalls hpermits
  have hmerged : (mergeInto mapping existing).1 =
      mapping.mergeOnto (memory.mapping? index mapping.rawField) := by
    rw [mergeInto_eq_mergeOnto, ← hdocument]
    rfl
  rw [hfield, hmerged]
  exact mergedInto_put hfound mapping

end Knowledge

/-! ## One merge among other clients -/

namespace Fleet

variable {α : Type} {fleet : Fleet α} {value : α}

/-- Whether a turn is one of the programs of a fleet. -/
def Turn.isOwn : Turn → Bool
  | foreign _ => false
  | _ => true

/-- Whether in some turns the programs of a fleet leave the store as it is, whatever other clients
do in between. -/
def Idle (time : String) : Fleet α → List Turn → Prop
  | _, [] => True
  | fleet, turn :: turns =>
    (turn.isOwn = true → (fleet.take time turn).memory = fleet.memory) ∧
      Idle time (fleet.take time turn) turns

theorem take_fail_none {number : Nat} (h : fleet.programs[number]? = none) (time : String)
    (cause : StoreError) : fleet.take time (.fail number cause) = fleet := by
  rw [take, h]

theorem take_fail_done {number : Nat} (h : fleet.programs[number]? = some (.done value))
    (time : String) (cause : StoreError) : fleet.take time (.fail number cause) = fleet := by
  rw [take, h]

theorem take_fail_store {number : Nat} {call : Call} {next : call.Reply → Program α}
    (h : fleet.programs[number]? = some (.act (.store call) next)) (time : String)
    (cause : StoreError) :
    fleet.take time (.fail number cause) =
      { memory := fleet.memory
        programs := fleet.programs.set number (next (.error cause))
        history := fleet.history ++ [⟨some number, call, .error cause⟩] } := by
  rw [take, h]
  rfl

/-- A program that has ended does nothing more. -/
theorem take_ended (h : fleet.programs = [.done value]) (time : String) {turn : Turn}
    (hown : turn.isOwn = true) : fleet.take time turn = fleet := by
  cases turn with
  | advance number =>
    cases number with
    | zero => exact take_done (by rw [h]; rfl) time
    | succ number => exact take_none (by rw [h]; rfl) time
  | fail number cause =>
    cases number with
    | zero => exact take_fail_done (by rw [h]; rfl) time cause
    | succ number => exact take_fail_none (by rw [h]; rfl) time cause
  | foreign call => cases hown

theorem idle_of_ended (h : fleet.programs = [.done value]) (time : String) (turns : List Turn) :
    fleet.Idle time turns := by
  induction turns generalizing fleet with
  | nil => trivial
  | cons turn turns ih =>
    have hended : (fleet.take time turn).programs = [.done value] := by
      cases hown : turn.isOwn with
      | true => rw [take_ended h time hown, h]
      | false =>
        cases turn with
        | foreign call => exact h
        | _ => cases hown
    exact ⟨fun hown => by rw [take_ended h time hown], ih hended⟩

end Fleet

/-- What holds of a single merge before it has written anything. -/
structure Unmerged (index : String) (timeout : Nat) (mapping : FieldMapping)
    (fleet : Fleet (Except MappingError Unit)) : Prop where
  numbered : fleet.memory.Numbered
  distinct : fleet.memory.Distinct
  underway : ∃ program, fleet.programs = [program] ∧
    Underway index timeout fleet.memory mapping program

/-- Whether the merge goes on and has left the store as it was. -/
structure Unmerged.Quiet (index : String) (timeout : Nat) (mapping : FieldMapping)
    (before after : Fleet (Except MappingError Unit)) : Prop where
  unmerged : Unmerged index timeout mapping after
  memory_eq : after.memory = before.memory

/-- Whether in some turns a merge has landed: one turn of its own has merged its mapping into the
document of the field, and its other turns have left the store as it was. -/
def Fleet.Lands (time index : String) (mapping : FieldMapping)
    (fleet : Fleet (Except MappingError Unit)) (turns : List Fleet.Turn) : Prop :=
  ∃ earlier later, turns = earlier ++ .advance 0 :: later ∧ fleet.Idle time earlier ∧
    MergedInto index mapping (fleet.takeAll time earlier).memory
      (fleet.takeAll time (earlier ++ [.advance 0])).memory ∧
    (fleet.takeAll time (earlier ++ [.advance 0])).Idle time later

namespace Unmerged

variable {index : String} {timeout : Nat} {mapping : FieldMapping}
  {fleet : Fleet (Except MappingError Unit)}

theorem quiet_of_eq (h : Unmerged index timeout mapping fleet)
    {after : Fleet (Except MappingError Unit)} (heq : after = fleet) :
    Quiet index timeout mapping fleet after := by
  subst heq
  exact ⟨h, rfl⟩

theorem quiet_of_underway (h : Unmerged index timeout mapping fleet)
    {program : Program (Except MappingError Unit)} {history : List Fleet.Record}
    (hprogram : Underway index timeout fleet.memory mapping program) :
    Quiet index timeout mapping fleet
      { memory := fleet.memory, programs := [program], history } :=
  ⟨⟨h.numbered, h.distinct, program, rfl, hprogram⟩, rfl⟩

theorem quiet_of_refused (h : Unmerged index timeout mapping fleet) {call : Call}
    {next : call.Reply → Program (Except MappingError Unit)}
    (hprograms : fleet.programs = [.act (.store call) next]) (time : String) {cause : StoreError}
    (hnext : Underway index timeout fleet.memory mapping (next (.error cause))) :
    Quiet index timeout mapping fleet (fleet.take time (.fail 0 cause)) := by
  rw [Fleet.take_fail_store (by rw [hprograms]; rfl), hprograms]
  exact h.quiet_of_underway hnext

theorem foreign (h : Unmerged index timeout mapping fleet) (time : String) (call : Call) :
    Unmerged index timeout mapping (fleet.take time (.foreign call)) := by
  obtain ⟨program, hprograms, hunderway⟩ := h.underway
  constructor
  · exact h.numbered.perform call
  · exact h.distinct.step h.numbered (fleet.memory.effect call)
  · exact ⟨program, hprograms, hunderway.step (fleet.memory.effect call)⟩

/-- A turn in which a call of the merge fails. -/
theorem fail (h : Unmerged index timeout mapping fleet) (time : String) (number : Nat)
    (cause : StoreError) :
    Quiet index timeout mapping fleet (fleet.take time (.fail number cause)) := by
  obtain ⟨program, hprograms, hunderway⟩ := h.underway
  cases number with
  | succ number => exact h.quiet_of_eq (Fleet.take_fail_none (by rw [hprograms]; rfl) time cause)
  | zero =>
    cases hunderway with
    | reading attempts =>
      cases attempts with
      | zero => exact h.quiet_of_eq (Fleet.take_fail_done (by rw [hprograms]; rfl) time cause)
      | succ attempts =>
        rw [mergeMapping_succ] at hprograms
        exact h.quiet_of_refused hprograms time (.failed _)
    | warning attempts existing hrecalls =>
      apply h.quiet_of_eq
      rw [Fleet.take, hprograms]
      rfl
    | writing attempts existing hrecalls =>
      exact h.quiet_of_refused hprograms time (.afterRefusal attempts cause)
    | failed => exact h.quiet_of_eq (Fleet.take_fail_done (by rw [hprograms]; rfl) time cause)

theorem read {attempts : Nat} (h : Unmerged index timeout mapping fleet)
    (hprograms : fleet.programs = [mergeMapping index timeout mapping (attempts + 1)])
    (time : String) : Quiet index timeout mapping fleet (fleet.take time (.advance 0)) := by
  have hmemory : (fleet.memory.perform (.get index mapping.rawField)).2 = fleet.memory := by
    rw [Memory.perform_get]
  rw [mergeMapping_succ] at hprograms
  rw [Fleet.take_store (by rw [hprograms]; rfl), hmemory, hprograms]
  refine h.quiet_of_underway (.afterRead attempts fun existing hread document hmem => ?_)
  obtain ⟨found, -, hdocument⟩ := Memory.exists_of_get hread
  exact recalls_of_read h.numbered h.distinct (hdocument.trans hmem)

theorem warn {attempts : Nat} {existing : Option StoredDocument}
    (h : Unmerged index timeout mapping fleet)
    (hprograms : fleet.programs = [.act (.notify (.warning .unreadableMapping)) fun _ =>
      beforeWrite index timeout mapping attempts existing])
    (hrecalls : ∀ document ∈ existing, Recalls fleet.memory index mapping.rawField document)
    (time : String) : Quiet index timeout mapping fleet (fleet.take time (.advance 0)) := by
  obtain ⟨memory, programs, history⟩ := fleet
  obtain rfl : programs = _ := hprograms
  exact h.quiet_of_underway (.writing attempts existing hrecalls)

theorem write {attempts : Nat} {existing : Option StoredDocument}
    (h : Unmerged index timeout mapping fleet)
    (hprograms : fleet.programs = [beforeWrite index timeout mapping attempts existing])
    (hrecalls : ∀ document ∈ existing, Recalls fleet.memory index mapping.rawField document)
    (time : String) :
    Quiet index timeout mapping fleet (fleet.take time (.advance 0)) ∨
    ((fleet.take time (.advance 0)).programs = [.done (.ok ())] ∧
      MergedInto index mapping fleet.memory (fleet.take time (.advance 0)).memory) := by
  have hwrite : fleet.programs[0]? = some (.act
      (.store (.write index (mergeInto mapping existing).1.rawField
        (mergeInto mapping existing).1.toJson (some (.asRead existing)) timeout .none))
      (afterWrite index timeout mapping attempts)) := by
    rw [hprograms]
    rfl
  rw [Fleet.take_store hwrite, hprograms]
  obtain ⟨found, hfound, hpermits, hperform⟩ | ⟨cause, hperform⟩ :=
    fleet.memory.perform_write index (mergeInto mapping existing).1.rawField
      (mergeInto mapping existing).1.toJson (some (.asRead existing)) timeout .none
  · right
    rw [hperform]
    exact ⟨rfl, mergedInto_of_write hrecalls hfound hpermits⟩
  · left
    rw [hperform]
    exact h.quiet_of_underway (.afterRefusal attempts cause)

/-- A turn in which the merge acts. -/
theorem advance (h : Unmerged index timeout mapping fleet) (time : String) (number : Nat) :
    Quiet index timeout mapping fleet (fleet.take time (.advance number)) ∨
    (number = 0 ∧ (fleet.take time (.advance number)).programs = [.done (.ok ())] ∧
      MergedInto index mapping fleet.memory (fleet.take time (.advance number)).memory) := by
  obtain ⟨program, hprograms, hunderway⟩ := h.underway
  cases number with
  | succ number =>
    exact .inl (h.quiet_of_eq (Fleet.take_none (by rw [hprograms]; rfl) time))
  | zero =>
    cases hunderway with
    | reading attempts =>
      cases attempts with
      | zero => exact .inl (h.quiet_of_eq (Fleet.take_done (by rw [hprograms]; rfl) time))
      | succ attempts => exact .inl (h.read hprograms time)
    | warning attempts existing hrecalls => exact .inl (h.warn hprograms hrecalls time)
    | writing attempts existing hrecalls =>
      rcases h.write hprograms hrecalls time with hquiet | hmerged
      · exact .inl hquiet
      · exact .inr ⟨rfl, hmerged⟩
    | failed => exact .inl (h.quiet_of_eq (Fleet.take_done (by rw [hprograms]; rfl) time))

theorem ne_ok (h : Unmerged index timeout mapping fleet) : fleet.result? 0 ≠ some (.ok ()) := by
  obtain ⟨program, hprograms, hunderway⟩ := h.underway
  intro hok
  rw [Fleet.result?_eq_some_iff, hprograms] at hok
  exact hunderway.ne_ok (Option.some.inj hok)

/-- A merge that ends well has landed. -/
theorem lands (h : Unmerged index timeout mapping fleet) (time : String)
    (turns : List Fleet.Turn) (hok : (fleet.takeAll time turns).result? 0 = some (.ok ())) :
    fleet.Lands time index mapping turns := by
  induction turns generalizing fleet with
  | nil => exact absurd hok h.ne_ok
  | cons turn turns ih =>
    have hlater : Unmerged index timeout mapping (fleet.take time turn) →
        (turn.isOwn = true → (fleet.take time turn).memory = fleet.memory) →
        fleet.Lands time index mapping (turn :: turns) := by
      intro hnext hown
      obtain ⟨earlier, later, rfl, hidle, hmerged, hrest⟩ := ih hnext hok
      exact ⟨turn :: earlier, later, rfl, ⟨hown, hidle⟩, hmerged, hrest⟩
    cases turn with
    | foreign call => exact hlater (h.foreign time call) fun hown => by cases hown
    | fail number cause =>
      have hquiet := h.fail time number cause
      exact hlater hquiet.unmerged fun _ => hquiet.memory_eq
    | advance number =>
      rcases h.advance time number with hquiet | ⟨rfl, hended, hmerged⟩
      · exact hlater hquiet.unmerged fun _ => hquiet.memory_eq
      · exact ⟨[], turns, rfl, trivial, hmerged, Fleet.idle_of_ended hended time turns⟩

end Unmerged

/-- Whatever a store answers, each write of a merge is made over what the read before it has found,
on the condition that it is still there, and goes to the document of the field exactly when what was
read is filed there; a merge ends well when one write has taken place.  In a store in memory, with
other clients and failing calls in between, a merge that ends well has merged its mapping into the
document of the field and changed nothing else. -/
theorem merge_written_back (index : String) (timeout : Nat) (mapping : FieldMapping) :
    (∀ (σ : Type) (handler : Handler σ) (state : σ),
      let merge := mergeMapping index timeout mapping mergeAttempts
      (∀ earlier exchange later, merge.trace handler state = earlier ++ exchange :: later →
        exchange.isWrite = true →
        ∃ (front warnings : List Exchange) (existing : Option StoredDocument)
            (merged : FieldMapping) (answer : Option (Except StoreError Acknowledgement)),
          earlier = front ++ readingExchange index mapping existing :: warnings ∧
          (∀ warning ∈ warnings, warning.call? = none) ∧
          exchange = ⟨.store (.write index merged.rawField merged.toJson (some (.asRead existing))
            timeout .none), answer⟩ ∧
          merged.Includes mapping ∧
          (merged.rawField = mapping.rawField ↔ Filed mapping.rawField existing)) ∧
      ((merge.run handler state).1 = some (.ok ()) →
        (merge.trace handler state).countP Exchange.isCommit = 1) ∧
      ((merge.run handler state).1 ≠ some (.ok ()) →
        (merge.trace handler state).countP Exchange.isCommit = 0)) ∧
    ∀ (calls : List Call) (time : String) (turns : List Fleet.Turn),
      let start := mergers index timeout (Memory.empty.performAll calls) [mapping]
      (start.takeAll time turns).result? 0 = some (.ok ()) →
        start.Lands time index mapping turns := by
  constructor
  · intro σ handler state merge
    have hattempts := attempts_of_ran (Ran.of_run handler merge state)
    refine ⟨?_, hattempts.countP_isCommit⟩
    intro earlier exchange later hsplit hwrite
    obtain ⟨front, existing, warnings, answer, hearlier, hwarnings, hexchange⟩ :=
      hattempts.write_cases hsplit hwrite
    refine ⟨front, warnings, existing, (mergeInto mapping existing).1, answer, hearlier, hwarnings,
      hexchange, ?_, rawField_mergeInto_iff mapping existing⟩
    rw [mergeInto_eq_mergeOnto]
    exact FieldMapping.includes_mergeOnto mapping _
  · intro calls time turns start
    have hnumbered := Memory.numbered_empty.performAll calls
    have hstart : Unmerged index timeout mapping start := by
      refine ⟨hnumbered, ?_, _, rfl, .reading mergeAttempts⟩
      exact Memory.distinct_empty.performAll Memory.numbered_empty calls
    exact hstart.lands time turns

/-- Another client writes the document of the field between the read of a merge and its write, and
the document of another field between its second read and its second write. -/
def outrunTurns : List Fleet.Turn :=
  [.advance 0,
    .foreign (.write "mappings" "EventID" (eventMapping "event.action" "registry").toJson none 0
      .none),
    .advance 0, .advance 0, .foreign (.write "mappings" "Image" .null none 0 .none), .advance 0]

theorem merge_written_back_overtaken :
    let mapping := eventMapping "event.code" "process"
    let memory := Memory.empty.performAll contendedCalls
    let merge := mergeMapping "mappings" 0 mapping mergeAttempts
    let start := mergers "mappings" 0 memory [mapping]
    let after := start.takeAll "" outrunTurns
    (merge.run (Memory.handler "") memory).1 = some (.ok ()) ∧
      (merge.trace (Memory.handler "") memory).countP Exchange.isCommit = 1 ∧
      after.result? 0 = some (.ok ()) ∧
      start.Lands "" "mappings" mapping outrunTurns ∧
      after.memory.mapping? "mappings" "EventID" =
        some ((eventMapping "event.action" "registry").merge mapping) ∧
      (after.memory.document? "mappings" "Image").map StoredDocument.version = some 1 := by
  intro mapping memory merge start after
  obtain ⟨hattempts, hlands⟩ := merge_written_back "mappings" 0 mapping
  obtain ⟨-, hcommit, -⟩ := hattempts Memory (Memory.handler "") memory
  have halone : (merge.run (Memory.handler "") memory).1 = some (.ok ()) := by
    decide +kernel
  have hresult : after.result? 0 = some (.ok ()) := by
    decide +kernel
  refine ⟨halone, hcommit halone, hresult, ?_, ?_, ?_⟩
  · exact hlands contendedCalls "" outrunTurns hresult
  · decide +kernel
  · decide +kernel

/-- A mapping of the field `Image`, to be merged where the mapping of another field is. -/
def imageMapping : FieldMapping :=
  { eventMapping "process.executable" "process" with rawField := "Image" }

/-- A store in which the document of the field `Image` is a mapping of the field `EventID`. -/
def misfiledCalls : List Call :=
  [.createIndex "mappings" .null,
    .write "mappings" "Image" (eventMapping "event.id" "dns").toJson none 0 .none]

/-- A merge that has read a mapping of another field writes to the document of that field. -/
theorem merge_misfiled :
    let memory := Memory.empty.performAll misfiledCalls
    let merge := mergeMapping "mappings" 0 imageMapping mergeAttempts
    (merge.calls (Memory.handler "") memory).take 2 =
        [.get "mappings" "Image", .write "mappings" "EventID"
          ((eventMapping "event.id" "dns").merge imageMapping).toJson
          (some (.unchanged 0 1)) 0 .none] ∧
      imageMapping.rawField ≠ "EventID" ∧
      (merge.run (Memory.handler "") memory).1 = some (.error (.contended "Image" 16)) := by
  exact ⟨rfl, by decide, by decide +kernel⟩

end SigmaCatalog
