import SigmaCatalog.Proofs.Store.WriteBack
import SigmaCatalog.Store.Memory.Handler

/-!
# Programs alone on a store

A program that has a store in memory to itself is followed action by action to its end.  What is
said of the end is carried back along the tree of the program, so that programs one after another
are treated one after another.  With nobody else about, an index is made ready at once and a merge
succeeds at its first attempt.
-/

namespace SigmaCatalog

open Program

namespace Program

variable {α β : Type} {time : String} {memory : Memory}

/-- A program that has a store to itself comes to an end, and its value and the store after it are
as they should be. -/
structure Leads (time : String) (program : Program α) (memory : Memory)
    (goal : α → Memory → Prop) : Prop where
  exists_run : ∃ value after, program.run (Memory.handler time) memory = (some value, after) ∧
    goal value after

namespace Leads

variable {program : Program α} {goal : α → Memory → Prop}

theorem done {value : α} (h : goal value memory) : Leads time (done value) memory goal :=
  ⟨value, memory, rfl, h⟩

theorem mono {other : α → Memory → Prop} (h : program.Leads time memory goal)
    (himp : ∀ value after, goal value after → other value after) :
    program.Leads time memory other := by
  obtain ⟨value, after, hrun, hgoal⟩ := h.exists_run
  exact ⟨value, after, hrun, himp value after hgoal⟩

/-- What a program leads to, the next one goes on from. -/
theorem bind {following : α → Program β} {later : β → Memory → Prop}
    (h : program.Leads time memory goal)
    (hfollowing : ∀ value after, goal value after → (following value).Leads time after later) :
    (program >>= following).Leads time memory later := by
  obtain ⟨value, after, hrun, hgoal⟩ := h.exists_run
  obtain ⟨last, final, hlast, hlater⟩ := (hfollowing value after hgoal).exists_run
  refine ⟨last, final, ?_, hlater⟩
  change (program.bind following).run (Memory.handler time) memory = _
  rw [run_bind, hrun]
  exact hlast

theorem store {call : Call} {next : call.Reply → Program α}
    (h : (next (memory.perform call).1).Leads time (memory.perform call).2 goal) :
    Leads time (act (.store call) next) memory goal :=
  ⟨h.exists_run⟩

theorem call {call : Call} {following : call.Reply → Program α}
    (h : (following (memory.perform call).1).Leads time (memory.perform call).2 goal) :
    (Program.call call >>= following).Leads time memory goal :=
  h.store

theorem storeWithin {seconds : Nat} {call : Call} {following : Option call.Reply → Program α}
    (h : (following (some (memory.perform call).1)).Leads time (memory.perform call).2 goal) :
    (perform (.storeWithin seconds call) >>= following).Leads time memory goal :=
  ⟨h.exists_run⟩

theorem askAbandoned {following : Bool → Program α}
    (h : (following false).Leads time memory goal) :
    (perform .askAbandoned >>= following).Leads time memory goal :=
  ⟨h.exists_run⟩

theorem askTime {following : String → Program α} (h : (following time).Leads time memory goal) :
    (perform .askTime >>= following).Leads time memory goal :=
  ⟨h.exists_run⟩

theorem notify {notice : Notice} {following : Unit → Program α}
    (h : (following ()).Leads time memory goal) :
    (Program.notify notice >>= following).Leads time memory goal :=
  ⟨h.exists_run⟩

theorem notifyAll {notices : List Notice} {following : Unit → Program α}
    (h : (following ()).Leads time memory goal) :
    (Program.notifyAll notices >>= following).Leads time memory goal := by
  induction notices with
  | nil => exact h
  | cons notice notices ih => exact ih.notify

/-- A program keeps what each of its actions keeps, if all of them come to an end. -/
theorem of_only {kind : Action → Prop} {keeps : Memory → Prop} (h : Only kind program)
    (hkind : ∀ action memory, kind action → keeps memory →
      ∃ answer after, Memory.handler time action memory = (some answer, after) ∧ keeps after)
    (hkeeps : keeps memory) : program.Leads time memory fun _ after => keeps after := by
  induction h generalizing memory with
  | done value => exact .done hkeeps
  | act haction _ ih =>
    obtain ⟨answer, between, hanswer, hbetween⟩ := hkind _ memory haction hkeeps
    obtain ⟨value, after, hrun, hafter⟩ := (ih answer hbetween).exists_run
    refine ⟨value, after, ?_, hafter⟩
    rw [run, hanswer]
    exact hrun

end Leads

/-- What a program does to a store that it has to itself is what its calls do. -/
theorem run_eq_performAll (program : Program α) (time : String) (memory : Memory) :
    (program.run (Memory.handler time) memory).2 =
      memory.performAll (program.calls (Memory.handler time) memory) := by
  induction program generalizing memory with
  | done value => rfl
  | act action next ih =>
    cases action with
    | store call => exact ih _ (memory.perform call).2
    | storeWithin seconds call => exact ih _ (memory.perform call).2
    | handOver | askAbandoned | notify | askTime => exact ih _ memory
    | breakDown => rfl

end Program

variable {time index : String} {memory : Memory}

/-- Making an index ready succeeds and changes no document. -/
theorem leads_makeReady (schema : Json) :
    (makeReady index schema).Leads time memory fun ready after =>
      ready = .ok () ∧ (after.index? index).isSome = true ∧
        ∀ name id, after.document? name id = memory.document? name id := by
  rw [makeReady]
  apply Leads.call
  rw [Memory.perform_indexExists]
  cases hindex : memory.index? index with
  | some found => exact .done ⟨rfl, congrArg Option.isSome hindex, fun _ _ => rfl⟩
  | none =>
    have heffect : memory.Effect (.createIndex index schema) (.ok true)
        (memory.setIndex index (.empty schema)) := .created hindex
    apply Leads.call
    rw [Memory.perform_createIndex_of_none hindex]
    exact .done ⟨rfl, Memory.isSome_index?_setIndex _ _ _,
      fun name id => heffect.document?_eq rfl⟩

/-! ## Merges -/

section Merges

variable {timeout : Nat} {mapping : FieldMapping}

/-- What was read is still there. -/
theorem permits_asRead (existing : Option StoredDocument) :
    Memory.permits (some (.asRead existing)) existing = true := by
  cases existing with
  | none => rfl
  | some document => simp [Memory.permits, Precondition.asRead, Precondition.holds]

/-- A merge that has an index of mappings to itself succeeds at its first attempt. -/
theorem leads_mergeMapping (hindexed : (memory.index? index).isSome = true)
    (hholds : memory.HoldsMappings index) (attempts : Nat) :
    (mergeMapping index timeout mapping (attempts + 1)).Leads time memory fun merged after =>
      merged = .ok () ∧ (after.index? index).isSome = true ∧ after.HoldsMappings index ∧
        MergedInto index mapping memory after := by
  obtain ⟨found, hfound⟩ := Option.isSome_iff_exists.mp hindexed
  obtain ⟨hsource, hfield⟩ := mapping?_of_holds hholds mapping.rawField
  have hmerged := mergedInto_put hfound mapping
  have hrawField := FieldMapping.rawField_mergeOnto hfield
  have hinto := mergeInto_of_source hsource mapping
  generalize mapping.mergeOnto (memory.mapping? index mapping.rawField) = merged at *
  have hwrite : memory.perform (.write index merged.rawField merged.toJson
      (some (.asRead (memory.document? index mapping.rawField))) timeout .none) =
      (.ok (found.acknowledge mapping.rawField),
        memory.setIndex index (found.put mapping.rawField merged.toJson)) := by
    rw [hrawField, Memory.perform_write_of_index _ hfound, permits_asRead, if_pos rfl]
  have hkept := hholds.write merged (some (.asRead (memory.document? index mapping.rawField)))
    timeout .none
  rw [hwrite] at hkept
  have hafterRead : afterRead index timeout mapping attempts
      (.ok (memory.document? index mapping.rawField)) =
      beforeWrite index timeout mapping attempts (memory.document? index mapping.rawField) := by
    rw [afterRead, hinto]
    rfl
  rw [mergeMapping_succ]
  apply Leads.store
  rw [Memory.perform_get_of_index _ hfound, hafterRead, beforeWrite, hinto]
  apply Leads.store
  change Leads time (afterWrite index timeout mapping attempts
    (memory.perform (.write index merged.rawField merged.toJson _ timeout .none)).1)
    (memory.perform (.write index merged.rawField merged.toJson _ timeout .none)).2 _
  rw [hwrite]
  exact .done ⟨rfl, Memory.isSome_index?_setIndex _ _ _, hkept, hmerged⟩

end Merges

/-! ## Mappings one after another -/

/-- Whether between two states of a store mappings have been merged into the documents of their
fields, one after another. -/
structure Accumulated (index : String) (mappings : List FieldMapping) (before after : Memory) :
    Prop where
  holds : after.HoldsMappings index
  merged : ∀ field, after.mapping? index field =
    FieldMapping.mergeOver (before.mapping? index field)
      (mappings.filter fun mapping => mapping.rawField = field)

/-- What keeping mappings does to a store: they are merged into the documents of their fields, and
the other indices are left alone. -/
structure Recorded (index : String) (mappings : List FieldMapping) (before after : Memory) : Prop
    extends Accumulated index mappings before after where
  others : ∀ name id, name ≠ index → after.document? name id = before.document? name id

section Accumulation

variable {timeout : Nat} {mapping : FieldMapping} {mappings newer : List FieldMapping}
  {before after later : Memory}

theorem Memory.mapping?_congr {field : String}
    (hsame : after.document? index field = before.document? index field) :
    after.mapping? index field = before.mapping? index field := by
  rw [mapping?, hsame, mapping?]

theorem accumulated_of_same (hholds : before.HoldsMappings index)
    (hsame : ∀ field, after.document? index field = before.document? index field) :
    Accumulated index [] before after where
  holds rawField document hdocument :=
    hholds rawField document ((hsame rawField).symm.trans hdocument)
  merged field := Memory.mapping?_congr (hsame field)

/-- What is merged later is merged over what was merged before. -/
theorem Accumulated.append (h : Accumulated index mappings before after)
    (hlater : Accumulated index newer after later) :
    Accumulated index (mappings ++ newer) before later where
  holds := hlater.holds
  merged field := by
    rw [hlater.merged, h.merged, List.filter_append, FieldMapping.mergeOver,
      FieldMapping.mergeOver, FieldMapping.mergeOver, List.foldl_append]

theorem recorded_of_same (hholds : before.HoldsMappings index)
    (hsame : ∀ name id, after.document? name id = before.document? name id) :
    Recorded index [] before after where
  toAccumulated := accumulated_of_same hholds (hsame index)
  others name id _ := hsame name id

theorem MergedInto.recorded (h : MergedInto index mapping before after)
    (hholds : after.HoldsMappings index) : Recorded index [mapping] before after where
  holds := hholds
  others name id hname := h.others name id fun heq => hname heq.1
  merged field := by
    by_cases hfield : mapping.rawField = field
    · subst hfield
      obtain ⟨merged, hafter, hmerged, -⟩ := h.merged
      rw [List.filter_cons_of_pos (by simp), hafter, hmerged]
      rfl
    · rw [List.filter_cons_of_neg (by simpa using hfield)]
      exact Memory.mapping?_congr (h.others index field fun heq => hfield heq.2.symm)

theorem Recorded.append (h : Recorded index mappings before after)
    (hlater : Recorded index newer after later) :
    Recorded index (mappings ++ newer) before later where
  toAccumulated := h.toAccumulated.append hlater.toAccumulated
  others name id hname := (hlater.others name id hname).trans (h.others name id hname)

theorem leads_mergeMappings (hindexed : (memory.index? index).isSome = true)
    (hholds : memory.HoldsMappings index) :
    (mergeMappings index timeout mappings).Leads time memory fun merged after =>
      merged = .ok () ∧ Recorded index mappings memory after := by
  induction mappings generalizing memory with
  | nil => exact .done ⟨rfl, recorded_of_same hholds fun _ _ => rfl⟩
  | cons mapping mappings ih =>
    refine (leads_mergeMapping hindexed hholds 15).bind ?_
    rintro _ after ⟨rfl, hindexed', hholds', hmerged⟩
    refine (ih hindexed' hholds').mono ?_
    rintro _ later ⟨rfl, hrecorded⟩
    exact ⟨rfl, (hmerged.recorded hholds').append hrecorded⟩

/-- A keeper with an index of its own merges all that it is given. -/
theorem leads_keep (hholds : memory.HoldsMappings index) (keeperSchema : String) :
    ((MappingKeeper.index index keeperSchema timeout).keep mappings).Leads time memory
      fun kept after => kept = .ok () ∧ Recorded index mappings memory after := by
  cases mappings with
  | nil => exact .done ⟨rfl, recorded_of_same hholds fun _ _ => rfl⟩
  | cons mapping mappings =>
    refine (leads_makeReady _).bind ?_
    rintro _ ready ⟨rfl, hindexed, hsame⟩
    have hready := recorded_of_same hholds hsame
    refine (leads_mergeMappings hindexed hready.holds).mono ?_
    rintro _ after ⟨rfl, hrecorded⟩
    exact ⟨rfl, hready.append hrecorded⟩

end Accumulation

/-! ## Fields that keep their names -/

/-- Whether a field keeps its name in a schema. -/
def FieldMapping.KeepsName (schema : String) (mapping : FieldMapping) : Prop :=
  mapping.schemaFields.get? schema = some mapping.rawField

/-- Whether an index has a mapping of a field in its place that maps a schema to the field and lists
a log type. -/
def Memory.Covers (memory : Memory) (index schema logType field : String) : Prop :=
  ∃ mapping, memory.mapping? index field = some mapping ∧ mapping.rawField = field ∧
    mapping.KeepsName schema ∧ logType ∈ TextSet.members mapping.logTypes

section Recording

variable {schema logType field : String} {mappings : List FieldMapping} {before after : Memory}

theorem Memory.Covers.congr (h : before.Covers index schema logType field)
    (hdocument : after.document? index field = before.document? index field) :
    after.Covers index schema logType field := by
  rw [Covers, Memory.mapping?_congr hdocument]
  exact h

/-- When every field keeps its name, a field is covered with the log types of the mappings that were
kept, and with those from before. -/
theorem Accumulated.covers (h : Accumulated index mappings before after)
    (hkeeps : ∀ mapping ∈ mappings, mapping.KeepsName schema)
    (hlogType : before.Covers index schema logType field ∨
      ∃ mapping ∈ mappings, mapping.rawField = field ∧
        logType ∈ TextSet.members mapping.logTypes) :
    after.Covers index schema logType field := by
  have hname : ∀ mapping ∈ mappings.filter fun mapping => mapping.rawField = field,
      mapping.schemaFields.get? schema = some field := by
    intro mapping hmapping
    obtain ⟨hkept, hfield⟩ := List.mem_filter.mp hmapping
    rw [← of_decide_eq_true hfield]
    exact hkeeps mapping hkept
  have hlisted : (∃ previous ∈ before.mapping? index field,
        previous.schemaFields.get? schema = some field ∧
          logType ∈ TextSet.members previous.logTypes) ∨
      ∃ mapping ∈ mappings.filter fun mapping => mapping.rawField = field,
        logType ∈ TextSet.members mapping.logTypes := by
    refine hlogType.imp ?_ ?_
    · rintro ⟨previous, hprevious, hfield, hkept, hold⟩
      exact ⟨previous, hprevious, hfield ▸ hkept, hold⟩
    · rintro ⟨mapping, hmapping, hfield, hnew⟩
      exact ⟨mapping, List.mem_filter.mpr ⟨hmapping, decide_eq_true hfield⟩, hnew⟩
  obtain ⟨merged, hmerged, hkept, hmember⟩ := FieldMapping.exists_mergeOver_of_agree hname hlisted
  have hafter := (h.merged field).trans hmerged
  have hrawField := (mapping?_of_holds h.holds field).2 merged hafter
  refine ⟨merged, hafter, hrawField, ?_, hmember⟩
  rw [FieldMapping.KeepsName, hrawField, hkept]

end Recording

end SigmaCatalog
