import Mathlib.Data.List.DropRight
import Mathlib.Data.List.Nodup
import SigmaCatalog.Proofs.Store.Running
import SigmaCatalog.Proofs.Store.Turns

/-!
# Contention

A merge gives up after a number of attempts, each of which has met a conflict.  A write meets a
conflict only where somebody else has changed the document since it was read, so each attempt is
charged to a change of its own, which took effect between the read and the write of that attempt.
Since a merge changes a document at most once, few merges of one field never make each other give
up.
-/

namespace SigmaCatalog

open Program

/-! ## Histories -/

namespace Fleet

/-- Whether a call, as it was answered, has written a document or removed it. -/
def Record.changes (index id : String) (record : Record) : Bool :=
  Memory.touches index id record.call record.reply

/-- What comes in a history from the first call of a program on. -/
def since (number : Nat) (history : List Record) : List Record :=
  history.dropWhile fun record => record.maker ≠ some number

/-- What comes in a history from the first call of a program to its last. -/
def span (number : Nat) (history : List Record) : List Record :=
  (since number history).rdropWhile fun record => record.maker ≠ some number

/-- How often others than a program have changed a document. -/
def rivals (number : Nat) (index id : String) (records : List Record) : Nat :=
  records.countP fun record => record.maker ≠ some number && record.changes index id

/-- Whether a program has changed no document. -/
def Quiet (number : Nat) (history : List Record) : Prop :=
  ∀ record ∈ history, record.maker = some number →
    ∀ index id, record.changes index id = false

/-- Whether a program has changed nothing but one document, and that at most once. -/
structure Once (number : Nat) (index id : String) (history : List Record) : Prop where
  only : ∀ record ∈ history, record.maker = some number →
    ∀ name other, record.changes name other = true → name = index ∧ other = id
  count_le : (history.countP fun record =>
    record.maker = some number && record.changes index id) ≤ 1

/-- The states of the store in some turns, from the first to the last. -/
def course {α : Type} (time : String) : Fleet α → List Turn → List Memory
  | fleet, [] => [fleet.memory]
  | fleet, turn :: turns => fleet.memory :: course time (fleet.take time turn) turns

/-- Whether a turn is one in which a call fails without reaching the store. -/
def Turn.isFail : Turn → Bool
  | fail _ _ => true
  | _ => false

section Histories

variable {number : Nat} {index id : String} {history records : List Record} {record : Record}

theorem since_append (history records : List Record) :
    since number (history ++ records) =
      if (since number history).isEmpty then since number records
      else since number history ++ records :=
  List.dropWhile_append

theorem since_append_of_ne_nil (h : since number history ≠ []) (records : List Record) :
    since number (history ++ records) = since number history ++ records := by
  rw [since_append, if_neg fun hempty => h (List.isEmpty_iff.mp hempty)]

theorem since_append_own (h : record.maker = some number) :
    since number (history ++ [record]) = since number history ++ [record] := by
  have hrecord : since number [record] = [record] := List.dropWhile_cons_of_neg (by simp [h])
  rw [since_append, hrecord]
  split
  · next hempty => rw [List.isEmpty_iff.mp hempty, List.nil_append]
  · rfl

theorem span_append_own (h : record.maker = some number) :
    span number (history ++ [record]) = since number history ++ [record] := by
  rw [span, since_append_own h, List.rdropWhile_concat_neg _ _ _ (by simp [h])]

theorem span_append_other (h : record.maker ≠ some number) :
    span number (history ++ [record]) = span number history := by
  have hrecord : since number [record] = [] := List.dropWhile_cons_of_pos (by simp [h])
  rw [span, since_append, hrecord]
  split
  · next hempty => rw [span, List.isEmpty_iff.mp hempty]
  · rw [List.rdropWhile_concat_pos _ _ _ (by simp [h]), span]

theorem span_sublist (number : Nat) (history : List Record) :
    List.Sublist (span number history) history :=
  ((List.rdropWhile_prefix _ _).sublist).trans (List.dropWhile_sublist _)

theorem rivals_span_le (number : Nat) (index id : String) (history : List Record) :
    rivals number index id (span number history) ≤ rivals number index id (since number history) :=
  (List.rdropWhile_prefix _ _).sublist.countP_le

theorem rivals_append (number : Nat) (index id : String) (records : List Record)
    (record : Record) :
    rivals number index id (records ++ [record]) =
      rivals number index id records +
        if record.maker ≠ some number && record.changes index id then 1 else 0 := by
  rw [rivals, List.countP_append, List.countP_singleton, rivals]

theorem rivals_append_own (h : record.maker = some number) (records : List Record) :
    rivals number index id (records ++ [record]) = rivals number index id records := by
  rw [rivals_append, if_neg (by simp [h]), Nat.add_zero]

theorem Quiet.append (h : Quiet number history)
    (hrecord : record.maker = some number → ∀ index id, record.changes index id = false) :
    Quiet number (history ++ [record]) :=
  List.forall_mem_append.mpr ⟨h, List.forall_mem_singleton.mpr hrecord⟩

theorem Quiet.count_eq_zero (h : Quiet number history) :
    (history.countP fun record => record.maker = some number && record.changes index id) = 0 := by
  rw [List.countP_eq_zero]
  intro record hrecord hown
  obtain ⟨hmaker, hchanges⟩ := Bool.and_eq_true_iff.mp hown
  rw [h record hrecord (of_decide_eq_true hmaker)] at hchanges
  cases hchanges

theorem Quiet.once (h : Quiet number history) : Once number index id history where
  only record hrecord hmaker name other hchanges := by
    rw [h record hrecord hmaker] at hchanges
    cases hchanges
  count_le := by
    rw [h.count_eq_zero]
    exact Nat.zero_le 1

/-- The only change of a program. -/
theorem Quiet.once_append (h : Quiet number history)
    (hrecord : ∀ name other, record.changes name other = true → name = index ∧ other = id) :
    Once number index id (history ++ [record]) where
  only := List.forall_mem_append.mpr
    ⟨h.once.only, List.forall_mem_singleton.mpr fun _ => hrecord⟩
  count_le := by
    rw [List.countP_append, h.count_eq_zero, Nat.zero_add]
    exact List.countP_le_length

theorem Once.append_other (h : Once number index id history) (hmaker : record.maker ≠ some number) :
    Once number index id (history ++ [record]) where
  only := List.forall_mem_append.mpr
    ⟨h.only, List.forall_mem_singleton.mpr fun heq => absurd heq hmaker⟩
  count_le := by
    rw [List.countP_append, List.countP_singleton, if_neg (by simp [hmaker])]
    exact h.count_le

end Histories

end Fleet

/-! ## What a merge has met -/

/-- A merge that is asked for: a mapping, the index that it goes to, and the time that its write may
take. -/
structure Contender where
  index : String
  timeout : Nat
  mapping : FieldMapping

def contest (memory : Memory) (contenders : List Contender) : Fleet (Except MappingError Unit) :=
  { memory
    programs := contenders.map fun contender =>
      mergeMapping contender.index contender.timeout contender.mapping mergeAttempts }

/-- Whether every document of an index that can be read as a mapping bears the name of its field. -/
def Memory.FilesMappings (memory : Memory) (index : String) : Prop :=
  ∀ found ∈ memory.index? index, ∀ entry ∈ found.documents.toList,
    ∀ mapping ∈ FieldMapping.ofJson? entry.2.source, mapping.rawField = entry.1

instance (memory : Memory) (index : String) : Decidable (memory.FilesMappings index) :=
  inferInstanceAs (Decidable (∀ found ∈ memory.index? index, _))

open Fleet

/-- What a merge has met that has read its document and is about to write: either what it has read
is still there, or its write is charged to a change of another. -/
structure Exposed (number : Nat) (contender : Contender) (memory : Memory) (history : List Record)
    (attempts : Nat) (existing : Option StoredDocument) : Prop where
  filed : Filed contender.mapping.rawField existing
  begun : since number history ≠ []
  rivals_le : mergeAttempts ≤ attempts + 1 +
    rivals number contender.index contender.mapping.rawField (since number history)
  charged : memory.document? contender.index contender.mapping.rawField = existing ∨
    mergeAttempts ≤ attempts +
      rivals number contender.index contender.mapping.rawField (since number history)

/-- Where a merge stands, by the attempts that are left and the changes that others have made. -/
inductive Contending (number : Nat) (contender : Contender) (memory : Memory)
    (history : List Record) : Program (Except MappingError Unit) → Prop
  | reading (attempts : Nat) (hquiet : Quiet number history)
    (hrivals : mergeAttempts ≤ attempts +
      rivals number contender.index contender.mapping.rawField (span number history)) :
    Contending number contender memory history
      (mergeMapping contender.index contender.timeout contender.mapping attempts)
  | warning (attempts : Nat) (existing : Option StoredDocument) (hquiet : Quiet number history)
    (hexposed : Exposed number contender memory history attempts existing) :
    Contending number contender memory history
      (.act (.notify (.warning .unreadableMapping)) fun _ =>
        beforeWrite contender.index contender.timeout contender.mapping attempts existing)
  | writing (attempts : Nat) (existing : Option StoredDocument) (hquiet : Quiet number history)
    (hexposed : Exposed number contender memory history attempts existing) :
    Contending number contender memory history
      (beforeWrite contender.index contender.timeout contender.mapping attempts existing)
  | won (honce : Once number contender.index contender.mapping.rawField history) :
    Contending number contender memory history (.done (.ok ()))
  | failed (cause : StoreError) (hquiet : Quiet number history) :
    Contending number contender memory history (.done (.error (.store cause)))

theorem Memory.FilesMappings.filed {memory : Memory} {index : String}
    (h : memory.FilesMappings index) (rawField : String) :
    Filed rawField (memory.document? index rawField) := by
  intro previous hprevious
  obtain ⟨document, hdocument, hmapping⟩ := Option.bind_eq_some_iff.mp hprevious
  obtain ⟨found, hfound, hget⟩ := Option.bind_eq_some_iff.mp hdocument
  exact h found hfound (rawField, document) (Table.mem_toList_iff.mpr hget) previous hmapping

section Steps

variable {number : Nat} {contender : Contender} {memory after : Memory} {history : List Record}
  {attempts : Nat} {existing : Option StoredDocument} {call : Call} {reply : call.Reply}
  {maker : Option Nat} {program : Program (Except MappingError Unit)}

/-- A call of another either leaves what was read as it is or takes the charge. -/
theorem Exposed.aside (h : Exposed number contender memory history attempts existing)
    (hmaker : maker ≠ some number) (heffect : memory.Effect call reply after) :
    Exposed number contender after (history ++ [⟨maker, call, reply⟩]) attempts existing := by
  have hsince := since_append_of_ne_nil h.begun [⟨maker, call, reply⟩]
  have hrivals := rivals_append number contender.index contender.mapping.rawField
    (since number history) ⟨maker, call, reply⟩
  have hle := h.rivals_le
  constructor
  · exact h.filed
  · rw [hsince]
    exact List.append_ne_nil_of_left_ne_nil h.begun _
  · rw [hsince, hrivals]
    omega
  · rw [hsince, hrivals]
    cases htouched : Memory.touches contender.index contender.mapping.rawField call reply with
    | true =>
      rw [if_pos (by simp [hmaker, Record.changes, htouched])]
      exact .inr (by omega)
    | false =>
      rw [heffect.document?_eq htouched]
      exact h.charged.imp_right fun hcharged => by omega

theorem Contending.aside (h : Contending number contender memory history program)
    (hmaker : maker ≠ some number) (heffect : memory.Effect call reply after) :
    Contending number contender after (history ++ [⟨maker, call, reply⟩]) program := by
  have hquietly : Quiet number history → Quiet number (history ++ [⟨maker, call, reply⟩]) :=
    fun hquiet => hquiet.append fun heq => absurd heq hmaker
  cases h with
  | reading attempts hquiet hrivals =>
    refine .reading attempts (hquietly hquiet) ?_
    rwa [span_append_other hmaker]
  | warning attempts existing hquiet hexposed =>
    exact .warning attempts existing (hquietly hquiet) (hexposed.aside hmaker heffect)
  | writing attempts existing hquiet hexposed =>
    exact .writing attempts existing (hquietly hquiet) (hexposed.aside hmaker heffect)
  | won honce => exact .won (honce.append_other hmaker)
  | failed cause hquiet => exact .failed cause (hquietly hquiet)

theorem Contending.refused (hquiet : Quiet number history) (cause : StoreError) :
    Contending number contender memory (history ++ [⟨some number, call, .error cause⟩])
      (.done (.error (.store cause))) :=
  .failed cause (hquiet.append fun _ index id => touches_error index id call cause)

/-- Reading what is there opens an attempt. -/
theorem Contending.of_read (hquiet : Quiet number history)
    (hrivals : mergeAttempts ≤ attempts + 1 +
      rivals number contender.index contender.mapping.rawField (span number history))
    (hfiles : memory.FilesMappings contender.index) :
    Contending number contender
      (memory.perform (.get contender.index contender.mapping.rawField)).2
      (history ++ [⟨some number, .get contender.index contender.mapping.rawField,
        (memory.perform (.get contender.index contender.mapping.rawField)).1⟩])
      (afterRead contender.index contender.timeout contender.mapping attempts
        (memory.perform (.get contender.index contender.mapping.rawField)).1) := by
  cases hfound : memory.index? contender.index with
  | none =>
    rw [Memory.perform_get, hfound]
    exact .refused hquiet (.noIndex contender.index)
  | some found =>
    rw [Memory.perform_get_of_index _ hfound]
    generalize hrecord : (⟨some number, .get contender.index contender.mapping.rawField,
      .ok (memory.document? contender.index contender.mapping.rawField)⟩ : Record) = record
    have hmaker : record.maker = some number := hrecord ▸ rfl
    have hquietly : Quiet number (history ++ [record]) := hquiet.append fun _ _ _ => hrecord ▸ rfl
    have hle := rivals_span_le number contender.index contender.mapping.rawField history
    have hexposed : Exposed number contender memory (history ++ [record]) attempts
        (memory.document? contender.index contender.mapping.rawField) := by
      constructor
      · exact hfiles.filed contender.mapping.rawField
      · rw [since_append_own hmaker]
        exact List.concat_ne_nil _ _
      · rw [since_append_own hmaker, rivals_append_own hmaker]
        omega
      · exact .inl rfl
    rw [afterRead]
    split
    · exact .warning attempts _ hquietly hexposed
    · exact .writing attempts _ hquietly hexposed

/-- A write takes place, or its conflict ends an attempt that is charged to another. -/
theorem Contending.of_write (hquiet : Quiet number history)
    (hexposed : Exposed number contender memory history attempts existing) :
    let call := mergeCall contender.index contender.timeout existing
      (mergeInto contender.mapping existing).1
    Contending number contender (memory.perform call).2
      (history ++ [⟨some number, call, (memory.perform call).1⟩])
      (afterWrite contender.index contender.timeout contender.mapping attempts
        (memory.perform call).1) := by
  intro call
  have hfield := (rawField_mergeInto_iff contender.mapping existing).mpr hexposed.filed
  obtain ⟨index, timeout, mapping⟩ := contender
  cases hfound : memory.index? index with
  | none =>
    have hperform : memory.perform call = (.error (.noIndex index), memory) := by
      simp only [call, mergeCall, Memory.perform, Memory.withIndex, hfound]
    rw [hperform]
    exact .refused hquiet _
  | some found =>
    have hperform : memory.perform call = _ := Memory.perform_write_of_index
      (mergeInto mapping existing).1.rawField hfound (mergeInto mapping existing).1.toJson
      (some (.asRead existing)) timeout .none
    by_cases hpermits : Memory.permits (some (.asRead existing))
        (memory.document? index (mergeInto mapping existing).1.rawField) = true
    · rw [if_pos hpermits] at hperform
      rw [hperform]
      refine .won (hquiet.once_append fun name other hchanges => ?_)
      obtain ⟨rfl, rfl⟩ : index = name ∧ (mergeInto mapping existing).1.rawField = other :=
        of_decide_eq_true hchanges
      exact ⟨rfl, hfield⟩
    · rw [if_neg hpermits] at hperform
      rw [hperform]
      refine .reading attempts (hquiet.append fun _ _ _ => rfl) ?_
      rw [span_append_own rfl, rivals_append_own rfl]
      rcases hexposed.charged with hsame | hcharged
      · rw [hfield, hsame] at hpermits
        exact absurd (permits_asRead existing) hpermits
      · exact hcharged

end Steps

/-! ## The contest -/

/-- What holds of one merge of a contest at any time. -/
def Fleet.Contends (number : Nat) (contender : Contender)
    (fleet : Fleet (Except MappingError Unit)) : Prop :=
  ∃ program, fleet.programs[number]? = some program ∧
    Contending number contender fleet.memory fleet.history program

namespace Fleet.Contends

variable {number : Nat} {contender : Contender} {fleet : Fleet (Except MappingError Unit)}

theorem begin {memory : Memory} {contenders : List Contender}
    (h : contenders[number]? = some contender) :
    (contest memory contenders).Contends number contender := by
  refine ⟨_, ?_, .reading mergeAttempts (List.forall_mem_nil _) (Nat.le_add_right _ _)⟩
  rw [contest, List.getElem?_map, h, Option.map_some]

theorem advance (h : fleet.Contends number contender)
    (hfiles : fleet.memory.FilesMappings contender.index) (time : String) :
    (fleet.take time (.advance number)).Contends number contender := by
  obtain ⟨program, hprogram, hcontending⟩ := h
  cases hcontending with
  | reading attempts hquiet hrivals =>
    cases attempts with
    | zero =>
      rw [take_done hprogram]
      exact ⟨_, hprogram, .reading 0 hquiet hrivals⟩
    | succ attempts =>
      rw [mergeMapping_succ] at hprogram
      rw [take_store hprogram]
      exact ⟨_, getElem?_set_of_eq_some hprogram, .of_read hquiet hrivals hfiles⟩
  | warning attempts existing hquiet hexposed =>
    rw [take_notify hprogram]
    exact ⟨_, getElem?_set_of_eq_some hprogram, .writing attempts existing hquiet hexposed⟩
  | writing attempts existing hquiet hexposed =>
    rw [beforeWrite] at hprogram
    rw [take_store hprogram]
    exact ⟨_, getElem?_set_of_eq_some hprogram, .of_write hquiet hexposed⟩
  | won honce =>
    rw [take_done hprogram]
    exact ⟨_, hprogram, .won honce⟩
  | failed cause hquiet =>
    rw [take_done hprogram]
    exact ⟨_, hprogram, .failed cause hquiet⟩

/-- The turns of others leave a merge where it stands, and charge its attempt with their changes. -/
theorem aside (h : fleet.Contends number contender) {turn : Turn}
    (hmover : turn.mover ≠ some number) (time : String) :
    (fleet.take time turn).Contends number contender := by
  obtain ⟨program, hprogram, hcontending⟩ := h
  refine ⟨program, (take_programs_other hmover time).trans hprogram, ?_⟩
  cases fleet.adds_take time turn with
  | nothing hmemory hhistory =>
    rw [hmemory, hhistory]
    exact hcontending
  | call hhistory heffect =>
    rw [hhistory]
    exact hcontending.aside hmover heffect

theorem takeAll (h : fleet.Contends number contender) {time : String} {turns : List Turn}
    (hturns : ∀ turn ∈ turns, turn.isFail = false)
    (hfiled : ∀ state ∈ fleet.course time turns, state.FilesMappings contender.index) :
    (fleet.takeAll time turns).Contends number contender := by
  induction turns generalizing fleet with
  | nil => exact h
  | cons turn turns ih =>
    obtain ⟨hturn, hlater⟩ := List.forall_mem_cons.mp hturns
    obtain ⟨hfiles, hcourse⟩ := List.forall_mem_cons.mp hfiled
    refine ih ?_ hlater hcourse
    by_cases hmover : turn.mover = some number
    · cases turn with
      | advance mover =>
        obtain rfl := Option.some.inj hmover
        exact h.advance hfiles time
      | fail mover cause => cases hturn
      | foreign call => cases hmover
    · exact h.aside hmover time

theorem once (h : fleet.Contends number contender) :
    Once number contender.index contender.mapping.rawField fleet.history := by
  obtain ⟨program, -, hcontending⟩ := h
  cases hcontending with
  | reading _ hquiet => exact hquiet.once
  | warning _ _ hquiet => exact hquiet.once
  | writing _ _ hquiet => exact hquiet.once
  | won honce => exact honce
  | failed _ hquiet => exact hquiet.once

/-- A merge that gives up has met a change of another for each of its attempts. -/
theorem rivals_of_result (h : fleet.Contends number contender) {rawField : String}
    {attempts : Nat} (hresult : fleet.result? number = some (.error (.contended rawField attempts))) :
    mergeAttempts ≤
        rivals number contender.index contender.mapping.rawField (span number fleet.history) ∧
      Quiet number fleet.history := by
  obtain ⟨program, hprogram, hcontending⟩ := h
  have hdone := Option.some.inj (hprogram.symm.trans (result?_eq_some_iff.mp hresult))
  cases hcontending with
  | reading left hquiet hrivals =>
    cases left with
    | zero => exact ⟨by rwa [Nat.zero_add] at hrivals, hquiet⟩
    | succ left =>
      rw [mergeMapping_succ] at hdone
      cases hdone
  | warning => cases hdone
  | writing => cases hdone
  | won => cases hdone
  | failed => cases hdone

end Fleet.Contends

/-! ## Merges that meet -/

namespace Fleet

variable {α : Type} {fleet : Fleet α} {number : Nat}

theorem callsOf_takeAll_of_none (h : fleet.programs[number]? = none)
    (hcalls : fleet.callsOf number = []) (time : String) (turns : List Turn) :
    (fleet.takeAll time turns).callsOf number = [] := by
  induction turns generalizing fleet with
  | nil => exact hcalls
  | cons turn turns ih =>
    by_cases hmover : turn.mover = some number
    · have hsame : fleet.take time turn = fleet := by
        cases turn with
        | advance mover =>
          obtain rfl := Option.some.inj hmover
          exact take_none h time
        | fail mover cause =>
          obtain rfl := Option.some.inj hmover
          exact take_fail_none h time cause
        | foreign call => cases hmover
      refine ih ?_ ?_
      · rw [hsame, h]
      · rw [hsame, hcalls]
    · refine ih ?_ ?_
      · rw [take_programs_other hmover, h]
      · rw [(fleet.adds_take time turn).callsOf_eq hmover, hcalls]

/-- The last of the calls from the first of a program to its last is one of the program. -/
theorem exists_own_of_span {history : List Record} (h : span number history ≠ []) :
    ∃ record ∈ span number history, record.maker = some number := by
  refine ⟨_, List.getLast_mem h, ?_⟩
  have hlast : ¬decide (((span number history).getLast h).maker ≠ some number) = true :=
    List.rdropWhile_last_not _ _ h
  simpa using hlast

theorem Once.countP_le {index id : String} {history : List Record}
    (h : Once number index id history) (name other : String) :
    (history.countP fun record => record.maker = some number && record.changes name other) ≤ 1 := by
  by_cases hsame : name = index ∧ other = id
  · obtain ⟨rfl, rfl⟩ := hsame
    exact h.count_le
  · refine (List.countP_eq_zero.mpr ?_).trans_le (Nat.zero_le 1)
    intro record hrecord hown
    obtain ⟨hmaker, hchanges⟩ := Bool.and_eq_true_iff.mp hown
    exact hsame (h.only record hrecord (of_decide_eq_true hmaker) name other hchanges)

end Fleet

/-- What is known of a history of merges: each has changed its own document at most. -/
structure Contested (contenders : List Contender) (history : List Record) : Prop where
  once : ∀ number contender, contenders[number]? = some contender →
    Once number contender.index contender.mapping.rawField history
  makers : ∀ record ∈ history, ∀ number, record.maker = some number →
    ∃ contender, contenders[number]? = some contender

/-- The merges of a field that make a call among some records. -/
def meeting (contenders : List Contender) (contender : Contender) (records : List Record) :
    List Nat :=
  (List.range contenders.length).filter fun number =>
    (contenders[number]?.any fun other =>
      other.index = contender.index && other.mapping.rawField = contender.mapping.rawField) &&
    records.any fun record => record.maker = some number

section Meeting

variable {contenders : List Contender} {contender : Contender} {number : Nat}
  {history records : List Record} {index id : String}

theorem mem_meeting {other : Contender} (hother : contenders[number]? = some other)
    (hindex : other.index = contender.index)
    (hfield : other.mapping.rawField = contender.mapping.rawField) {record : Record}
    (hrecord : record ∈ records) (hmaker : record.maker = some number) :
    number ∈ meeting contenders contender records := by
  refine List.mem_filter.mpr ⟨List.mem_range.mpr (List.getElem?_eq_some_iff.mp hother).1, ?_⟩
  rw [hother]
  refine Bool.and_eq_true_iff.mpr ⟨by simp [hindex, hfield], ?_⟩
  exact List.any_eq_true.mpr ⟨record, hrecord, decide_eq_true hmaker⟩

theorem Contested.nodup_makers (h : Contested contenders history)
    (hrecords : records.Sublist history)
    (hchanges : ∀ record ∈ records, record.changes index id = true)
    (hmakers : ∀ record ∈ records, record.maker ≠ none) :
    (records.map Record.maker).Nodup := by
  rw [List.nodup_iff_count_le_one]
  intro maker
  rw [List.count_eq_countP, List.countP_map]
  cases maker with
  | none =>
    refine (List.countP_eq_zero.mpr fun record hrecord hnone => ?_).trans_le (Nat.zero_le 1)
    exact hmakers record hrecord (eq_of_beq hnone)
  | some number =>
    by_cases hexists : ∃ record ∈ records, record.maker = some number
    · obtain ⟨record, hrecord, hmaker⟩ := hexists
      obtain ⟨contender, hcontender⟩ := h.makers record (hrecords.subset hrecord) number hmaker
      calc records.countP ((· == some number) ∘ Record.maker)
        _ ≤ records.countP fun record =>
            record.maker = some number && record.changes index id := by
          refine List.countP_mono_left fun record hrecord hown => ?_
          exact Bool.and_eq_true_iff.mpr
            ⟨decide_eq_true (eq_of_beq hown), hchanges record hrecord⟩
        _ ≤ history.countP fun record =>
            record.maker = some number && record.changes index id := hrecords.countP_le
        _ ≤ 1 := (h.once number contender hcontender).countP_le index id
    · refine (List.countP_eq_zero.mpr fun record hrecord hown => ?_).trans_le (Nat.zero_le 1)
      exact hexists ⟨record, hrecord, eq_of_beq hown⟩

/-- The changes that a merge meets are fewer than the merges of its field that it meets, itself
among them. -/
theorem Contested.rivals_lt (h : Contested contenders history)
    (hcontender : contenders[number]? = some contender)
    (hforeign : ∀ record ∈ span number history, record.maker = none →
      record.changes contender.index contender.mapping.rawField = false)
    (hspan : span number history ≠ []) :
    rivals number contender.index contender.mapping.rawField (span number history) <
      (meeting contenders contender (span number history)).length := by
  obtain ⟨own, hown, hownMaker⟩ := exists_own_of_span hspan
  have hmember : number ∈ meeting contenders contender (span number history) :=
    mem_meeting hcontender rfl rfl hown hownMaker
  rw [rivals, List.countP_eq_length_filter]
  have hrival : ∀ record ∈ (span number history).filter (fun record =>
      record.maker ≠ some number && record.changes contender.index contender.mapping.rawField),
      record ∈ span number history ∧ record.maker ≠ some number ∧
        record.changes contender.index contender.mapping.rawField = true := by
    intro record hrecord
    simpa using hrecord
  have hsublist := (List.filter_sublist (p := fun record : Record =>
    record.maker ≠ some number && record.changes contender.index contender.mapping.rawField)
    (l := span number history)).trans (span_sublist number history)
  generalize (span number history).filter (fun record => record.maker ≠ some number &&
    record.changes contender.index contender.mapping.rawField) = changers at hrival hsublist ⊢
  have hmakers : ∀ record ∈ changers, record.maker ≠ none := by
    intro record hrecord hnone
    obtain ⟨hspan, -, hchanges⟩ := hrival record hrecord
    rw [hforeign record hspan hnone] at hchanges
    cases hchanges
  have hnodup := h.nodup_makers hsublist (fun record hrecord => (hrival record hrecord).2.2)
    hmakers
  -- Whoever has made a change is another merge of the field.
  have hsubset : changers.map Record.maker ⊆
      ((meeting contenders contender (span number history)).erase number).map some := by
    intro maker hmaker
    obtain ⟨record, hrecord, rfl⟩ := List.mem_map.mp hmaker
    obtain ⟨hspan, hother, hchanges⟩ := hrival record hrecord
    obtain ⟨other, hmaker⟩ := Option.ne_none_iff_exists'.mp (hmakers record hrecord)
    rw [hmaker] at hother ⊢
    obtain ⟨contender', hcontender'⟩ :=
      h.makers record (hsublist.subset hrecord) other hmaker
    obtain ⟨hindex, hfield⟩ := (h.once other contender' hcontender').only record
      (hsublist.subset hrecord) hmaker _ _ hchanges
    refine List.mem_map.mpr ⟨other, ?_, rfl⟩
    rw [List.mem_erase_of_ne fun heq => hother (congrArg some heq)]
    exact mem_meeting hcontender' hindex.symm hfield.symm hspan hmaker
  have hlength := hnodup.length_le_of_subset hsubset
  rw [List.length_map, List.length_map, List.length_erase_of_mem hmember] at hlength
  have hpos := List.length_pos_of_mem hmember
  omega

end Meeting

/-- A merge of mappings into a store in memory in which every readable mapping is filed under its
field gives up only when, from its first call to its last, others have changed its document at least
as often as a merge is tried; it has then changed nothing itself.  So it never gives up when nobody
but at most as many merges of its field, itself among them, change the document in that time. -/
theorem rivals_of_contended (time : String) (memory : Memory) (contenders : List Contender)
    (turns : List Fleet.Turn) (hturns : ∀ turn ∈ turns, turn.isFail = false)
    (hfiled : ∀ state ∈ (contest memory contenders).course time turns,
      ∀ contender ∈ contenders, state.FilesMappings contender.index)
    (number : Nat) (contender : Contender) (hcontender : contenders[number]? = some contender)
    (rawField : String) (attempts : Nat) :
    let final := (contest memory contenders).takeAll time turns
    let meanwhile := span number final.history
    (final.result? number = some (.error (.contended rawField attempts)) →
      16 ≤ rivals number contender.index contender.mapping.rawField meanwhile ∧
        Quiet number final.history) ∧
    ((∀ record ∈ meanwhile, record.maker = none →
        record.changes contender.index contender.mapping.rawField = false) →
      (meeting contenders contender meanwhile).length ≤ 16 →
        final.result? number ≠ some (.error (.contended rawField attempts))) := by
  intro final meanwhile
  have hcontends : ∀ other contender', contenders[other]? = some contender' →
      final.Contends other contender' := by
    intro other contender' hcontender'
    refine (Contends.begin hcontender').takeAll hturns fun state hstate => ?_
    exact hfiled state hstate contender' (List.mem_of_getElem? hcontender')
  have hcontested : Contested contenders final.history := by
    constructor
    · exact fun other contender' hcontender' => (hcontends other contender' hcontender').once
    · intro record hrecord other hmaker
      refine Option.isSome_iff_exists.mp (Option.isSome_iff_ne_none.mpr fun hnone => ?_)
      have habsent : (contest memory contenders).programs[other]? = none := by
        rw [contest, List.getElem?_map, hnone, Option.map_none]
      have hcalls := callsOf_takeAll_of_none habsent rfl time turns
      exact List.filter_eq_nil_iff.mp hcalls record hrecord (decide_eq_true hmaker)
  refine ⟨(hcontends number contender hcontender).rivals_of_result, ?_⟩
  intro hforeign hmeeting hresult
  obtain ⟨hrivals, -⟩ := (hcontends number contender hcontender).rivals_of_result hresult
  have hspan : span number final.history ≠ [] := by
    intro hempty
    rw [hempty] at hrivals
    exact Nat.not_succ_le_zero 15 hrivals
  have hlt := hcontested.rivals_lt hcontender hforeign hspan
  exact Nat.lt_irrefl 16 (Nat.lt_of_le_of_lt hrivals (Nat.lt_of_lt_of_le hlt hmeeting))

/-- Merges of a mapping of the field `EventID`. -/
def eventContenders (number : Nat) : List Contender :=
  List.replicate number ⟨"mappings", 0, eventMapping "event.code" "dns"⟩

/-- One merge after another takes place between the read and the write of the first. -/
def overtakingTurns (number : Nat) : List Fleet.Turn :=
  (List.range number).flatMap fun other =>
    [.advance 0, .advance (other + 1), .advance (other + 1), .advance 0]

/-- The first of seventeen merges gives up; the first of sixteen does not. -/
theorem rivals_of_contended_overtaken :
    let memory := Memory.empty.performAll [.createIndex "mappings" .null]
    let many := (contest memory (eventContenders 17)).takeAll "" (overtakingTurns 16)
    let few := (contest memory (eventContenders 16)).takeAll "" (overtakingTurns 16)
    many.result? 0 = some (.error (.contended "EventID" 16)) ∧
      16 ≤ rivals 0 "mappings" "EventID" (span 0 many.history) ∧ Quiet 0 many.history ∧
      few.result? 0 = some (.ok ()) ∧
      few.result? 0 ≠ some (.error (.contended "EventID" 16)) := by
  intro memory many few
  have hmany : many.result? 0 = some (.error (.contended "EventID" 16)) := by decide +kernel
  have hgiveUp := (rivals_of_contended "" memory (eventContenders 17) (overtakingTurns 16)
    (by decide) (by decide +kernel) 0 _ rfl "EventID" 16).1 hmany
  refine ⟨hmany, hgiveUp.1, hgiveUp.2, by decide +kernel, ?_⟩
  exact (rivals_of_contended "" memory (eventContenders 16) (overtakingTurns 16)
    (by decide) (by decide +kernel) 0 _ rfl "EventID" 16).2 (by decide +kernel) (by decide +kernel)

end SigmaCatalog
