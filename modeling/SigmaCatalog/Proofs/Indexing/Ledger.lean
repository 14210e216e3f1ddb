import Mathlib.Data.List.Nodup
import SigmaCatalog.Proofs.Indexing.Filing
import SigmaCatalog.Proofs.Store.Schedule

/-!
# The versions that concurrent requests are given

Requests to index rules run at once over one store.  Each of them writes its rule at most once, and
the writes under one identifier are numbered one after another from the version that was there.  The
history of the store is the ledger of these writes: who made each of them, what was written, and how
it was acknowledged.  A turn either leaves the index of rules alone or adds one entry to the ledger.
-/

namespace SigmaCatalog

/-! ## Entries of the ledger -/

/-- A write of a document that took place: who made it, what was written, and its
acknowledgement. -/
structure Filing where
  maker : Nat
  id : String
  body : Json
  acknowledgement : Acknowledgement

/-- The write in an index that a record is about, if it took place and a program made it. -/
def Fleet.Record.filingIn? (index : String) : Fleet.Record → Option Filing
  | ⟨some maker, .write name id body _ _ _, .ok acknowledgement⟩ =>
    if name = index then some ⟨maker, id, body, acknowledgement⟩ else none
  | _ => none

/-- The writes in an index that took place, in their order. -/
def Fleet.filings {α : Type} (index : String) (fleet : Fleet α) : List Filing :=
  fleet.history.filterMap (Record.filingIn? index)

def filingsOf (id : String) (filings : List Filing) : List Filing :=
  filings.filter fun filing => filing.id = id

/-- The version of a document; one that does not exist has version 0. -/
def Memory.version (memory : Memory) (index id : String) : Int :=
  match memory.document? index id with
  | some document => document.version
  | none => 0

/-- The acknowledgement of the write that gives a document a version. -/
def stamp (id : String) (version : Int) : Acknowledgement :=
  { id, version, status := if version = 1 then .created else .updated }

/-- Whether every document of a store has a version above 0. -/
def Memory.Versioned (memory : Memory) : Prop :=
  ∀ index id document, memory.document? index id = some document → 1 ≤ document.version

section Entries

variable {α : Type} {index id : String}

theorem Fleet.Record.filingIn?_of_untouched {record : Fleet.Record}
    (h : ∀ id, Memory.touches index id record.call record.reply = false) :
    record.filingIn? index = none := by
  unfold filingIn?
  split
  · next maker name id body condition timeout refresh acknowledgement =>
    have hname : name ≠ index := by
      rintro rfl
      exact absurd (h id) (by simp [Memory.touches])
    exact if_neg hname
  · rfl

theorem Fleet.Spared.filings_eq {before after : Fleet α} (h : before.Spared index after) :
    after.filings index = before.filings index := by
  obtain ⟨records, hhistory, huntouched⟩ := h.history
  have hnone : records.filterMap (Record.filingIn? index) = [] :=
    List.filterMap_eq_nil_iff.mpr fun record hrecord =>
      Record.filingIn?_of_untouched (huntouched record hrecord)
  rw [filings, hhistory, List.filterMap_append, hnone, List.append_nil, ← filings]

theorem filingsOf_append_self (filings : List Filing) (filing : Filing) :
    filingsOf filing.id (filings ++ [filing]) = filingsOf filing.id filings ++ [filing] := by
  simp [filingsOf]

theorem filingsOf_append_other (filings : List Filing) {filing : Filing} (h : id ≠ filing.id) :
    filingsOf id (filings ++ [filing]) = filingsOf id filings := by
  simp [filingsOf, Ne.symm h]

end Entries

/-! ## Versions -/

namespace Memory

variable {memory : Memory} {index id : String}

theorem versioned_empty : empty.Versioned := by
  intro index id document hdocument
  cases hdocument

theorem Versioned.version_nonneg (h : memory.Versioned) (index id : String) :
    0 ≤ memory.version index id := by
  unfold version
  split
  · next document hdocument =>
    have hversion := h index id document hdocument
    omega
  · exact Int.le_refl 0

theorem Index.id_acknowledge (index : Index) (id : String) : (index.acknowledge id).id = id := by
  unfold acknowledge
  split
  · rfl
  · rfl

theorem stamp_injective (id : String) : Function.Injective (stamp id) := fun _ _ heq =>
  congrArg Acknowledgement.version heq

/-- A write gives a document the next version. -/
theorem acknowledge_eq_stamp {found : Index} (hfound : memory.index? index = some found)
    (hpositive : ∀ document, memory.document? index id = some document → 1 ≤ document.version) :
    found.acknowledge id = stamp id (memory.version index id + 1) := by
  unfold version Index.acknowledge stamp
  rw [document?_of_index id hfound] at hpositive ⊢
  cases hget : found.documents.get? id with
  | none => rfl
  | some document =>
    have hversion := hpositive document hget
    have hne : document.version + 1 ≠ 1 := by omega
    simp only [if_neg hne]

theorem version_put {found : Index} (hfound : memory.index? index = some found) (body : Json)
    (other : String) :
    (memory.setIndex index (found.put id body)).version index other =
      if other = id then (found.acknowledge id).version else memory.version index other := by
  unfold version
  rw [document?_put id hfound]
  by_cases hother : other = id
  · rw [if_pos hother, if_pos hother]
  · rw [if_neg hother, if_neg hother]

theorem Versioned.step {after : Memory} {call : Call} {reply : call.Reply} (h : memory.Versioned)
    (heffect : memory.Effect call reply after) : after.Versioned := by
  intro index id document hdocument
  rcases heffect.document_cases hdocument with hold | ⟨_, _, _, _, found, _, hfound, rfl⟩
  · exact h index id document hold
  · have hnonneg := h.version_nonneg index id
    rw [acknowledge_eq_stamp hfound (h index id)]
    change 1 ≤ memory.version index id + 1
    omega

theorem Versioned.performAll (h : memory.Versioned) (calls : List Call) :
    (memory.performAll calls).Versioned := by
  induction calls generalizing memory with
  | nil => exact h
  | cons call calls ih => exact ih (h.step (memory.effect call))

end Memory

/-! ## The books of one document -/

/-- What the ledger says of a document: its writes have the versions after the one that was there,
and the last of them is what is there. -/
structure Books (index : String) (initial memory : Memory) (filings : List Filing) (id : String) :
    Prop where
  version : memory.version index id = initial.version index id + (filingsOf id filings).length
  stamps : (filingsOf id filings).map Filing.acknowledgement =
    (List.range (filingsOf id filings).length).map fun position : Nat =>
      stamp id (initial.version index id + 1 + position)
  latest : ∀ filing, (filingsOf id filings).getLast? = some filing → ∃ document,
    memory.document? index id = some document ∧ document.version = memory.version index id ∧
      document.source = filing.body
  unwritten : filingsOf id filings = [] → memory.document? index id = initial.document? index id

namespace Books

variable {index id : String} {initial memory after : Memory} {filings : List Filing}

theorem begin (index : String) (initial : Memory) (id : String) :
    Books index initial initial [] id where
  version := (Int.add_zero _).symm
  stamps := rfl
  latest filing hfiling := by cases hfiling
  unwritten _ := rfl

theorem congr (h : Books index initial memory filings id)
    (hdocument : after.document? index id = memory.document? index id) :
    Books index initial after filings id := by
  have hversion : after.version index id = memory.version index id := by
    rw [Memory.version, hdocument, ← Memory.version]
  constructor
  · rw [hversion, h.version]
  · exact h.stamps
  · rw [hdocument, hversion]
    exact h.latest
  · rw [hdocument]
    exact h.unwritten

theorem positive (h : Books index initial memory filings id) (hinitial : initial.Versioned)
    {document : StoredDocument} (hdocument : memory.document? index id = some document) :
    1 ≤ document.version := by
  by_cases hnil : filingsOf id filings = []
  · exact hinitial index id document ((h.unwritten hnil).symm.trans hdocument)
  · have hversion := h.version
    have hnonneg := hinitial.version_nonneg index id
    have hlength := List.length_pos_iff.mpr hnil
    rw [Memory.version, hdocument] at hversion
    dsimp only at hversion
    omega

/-- One more write of a document is the next one in its books and in no others. -/
theorem file (h : Books index initial memory filings id) (hinitial : initial.Versioned)
    {found : Memory.Index} (hfound : memory.index? index = some found) {filing : Filing}
    (hacknowledgement : filing.acknowledgement = found.acknowledge filing.id) :
    Books index initial (memory.setIndex index (found.put filing.id filing.body))
      (filings ++ [filing]) id := by
  by_cases hid : id = filing.id
  · subst hid
    have hstamp := Memory.acknowledge_eq_stamp hfound fun document => h.positive hinitial
    have hversion : (memory.setIndex index (found.put filing.id filing.body)).version index
        filing.id = memory.version index filing.id + 1 := by
      rw [Memory.version_put hfound, if_pos rfl, hstamp]
      rfl
    constructor
    · rw [hversion, filingsOf_append_self, List.length_append, h.version]
      push_cast
      rw [List.length_singleton]
      omega
    · rw [filingsOf_append_self, List.map_append, h.stamps, List.length_append,
        List.length_singleton, List.range_succ, List.map_append]
      congr 1
      rw [List.map_singleton, List.map_singleton, hacknowledgement, hstamp, h.version]
      congr 2
      omega
    · intro last hlast
      rw [filingsOf_append_self, List.getLast?_append, List.getLast?_singleton] at hlast
      obtain rfl := Option.some.inj hlast
      refine ⟨_, by rw [Memory.document?_put _ hfound, if_pos rfl], ?_, rfl⟩
      rw [Memory.version_put hfound, if_pos rfl]
    · intro hnil
      rw [filingsOf_append_self] at hnil
      simp at hnil
  · have hdocument : (memory.setIndex index (found.put filing.id filing.body)).document? index id =
        memory.document? index id := by
      rw [Memory.document?_put _ hfound, if_neg hid]
    have hkept := h.congr hdocument
    constructor
    · rw [filingsOf_append_other _ hid]
      exact hkept.version
    · rw [filingsOf_append_other _ hid]
      exact hkept.stamps
    · rw [filingsOf_append_other _ hid]
      exact hkept.latest
    · rw [filingsOf_append_other _ hid]
      exact hkept.unwritten

/-- The write with the last version is the last one. -/
theorem last_of_stamp (h : Books index initial memory filings id) {filing : Filing}
    (hfiling : filing ∈ filingsOf id filings)
    (hstamp : filing.acknowledgement =
      stamp id (initial.version index id + (filingsOf id filings).length)) :
    (filingsOf id filings).getLast? = some filing := by
  have hpos := List.length_pos_of_mem hfiling
  have hnodup : ((filingsOf id filings).map Filing.acknowledgement).Nodup := by
    rw [h.stamps]
    refine List.Nodup.map (fun position other hposition => ?_) List.nodup_range
    have hversion := Memory.stamp_injective id hposition
    omega
  have hlast : ((filingsOf id filings).map Filing.acknowledgement).getLast? =
      some filing.acknowledgement := by
    rw [h.stamps, List.getLast?_map, List.getLast?_range, if_neg (Nat.ne_of_gt hpos), hstamp]
    refine congrArg (some ∘ stamp id) ?_
    omega
  rw [List.getLast?_map] at hlast
  obtain ⟨last, hgetLast, heq⟩ := Option.map_eq_some_iff.mp hlast
  rw [← List.inj_on_of_nodup_map hnodup (List.mem_of_getLast? hgetLast) hfiling heq, hgetLast]

end Books

end SigmaCatalog
