import SigmaCatalog.Proofs.Program.Trace
import SigmaCatalog.Proofs.Store.Merging

/-!
# Attempts to merge

Whatever a store answers, a merge writes over what it has read just before, on the condition that it
is still there.  The write goes where the read went exactly when what was read is absent,
unreadable, or a mapping of the same field.  A merge ends well exactly when one of its writes has
taken place.
-/

namespace SigmaCatalog

open Program

/-- What was read, as a mapping. -/
def readMapping? (existing : Option StoredDocument) : Option FieldMapping :=
  existing.bind fun document => FieldMapping.ofJson? document.source

/-- Whether what was read in the place of a field is, if it can be read as a mapping, a mapping of
that field. -/
def Filed (rawField : String) (existing : Option StoredDocument) : Prop :=
  ∀ previous ∈ readMapping? existing, previous.rawField = rawField

namespace FieldMapping

/-- Whether a mapping has all log types and all names in schemas of another. -/
structure Includes (merged mapping : FieldMapping) : Prop where
  logTypes : ∀ logType ∈ TextSet.members mapping.logTypes, logType ∈ TextSet.members merged.logTypes
  schemaFields : ∀ schema, ∀ name ∈ mapping.schemaFields.get? schema,
    merged.schemaFields.get? schema = some name

theorem includes_mergeOnto (mapping : FieldMapping) (current : Option FieldMapping) :
    (mapping.mergeOnto current).Includes mapping := by
  have hmerged : mergeOver current [mapping] = some (mapping.mergeOnto current) := rfl
  constructor
  · intro logType hlogType
    exact (logTypes_mergeOver hmerged logType).mpr
      (.inr ⟨mapping, List.mem_singleton_self _, hlogType⟩)
  · intro schema name hname
    rw [schemaFields_mergeOver hmerged schema]
    have hget : mapping.schemaFields.get? schema = some name := hname
    simp [hget]

end FieldMapping

theorem mergeInto_eq_mergeOnto (mapping : FieldMapping) (existing : Option StoredDocument) :
    (mergeInto mapping existing).1 = mapping.mergeOnto (readMapping? existing) := by
  cases existing with
  | none => rfl
  | some document =>
    change (mergeInto mapping (some document)).1 =
      mapping.mergeOnto (FieldMapping.ofJson? document.source)
    rw [mergeInto]
    cases FieldMapping.ofJson? document.source with
    | none => rfl
    | some previous => rfl

/-- The merged mapping is one of the same field exactly when what was read is filed. -/
theorem rawField_mergeInto_iff (mapping : FieldMapping) (existing : Option StoredDocument) :
    (mergeInto mapping existing).1.rawField = mapping.rawField ↔
      Filed mapping.rawField existing := by
  rw [mergeInto_eq_mergeOnto, Filed]
  cases readMapping? existing with
  | none => simp [FieldMapping.mergeOnto]
  | some previous => simp [FieldMapping.mergeOnto, FieldMapping.merge]

/-! ## Attempts -/

namespace Program.Exchange

def isWrite : Exchange → Bool
  | ⟨.store (.write ..), _⟩ => true
  | _ => false

/-- Whether an exchange is a write that took place. -/
def isCommit : Exchange → Bool
  | ⟨.store (.write ..), some (.ok _)⟩ => true
  | _ => false

theorem isCommit_eq_false {exchange : Exchange} (h : exchange.isWrite = false) :
    exchange.isCommit = false := by
  unfold isCommit
  split
  · cases h
  · rfl

theorem isWrite_eq_false {exchange : Exchange} (h : exchange.call? = none) :
    exchange.isWrite = false := by
  unfold isWrite
  split
  · cases h
  · rfl

/-- After exchanges none of which is a write comes the first write, and then the later ones. -/
theorem split_cases {front rest earlier later : List Exchange} {first exchange : Exchange}
    (hfront : ∀ other ∈ front, other.isWrite = false)
    (h : front ++ first :: rest = earlier ++ exchange :: later) (hwrite : exchange.isWrite = true) :
    (earlier = front ∧ exchange = first) ∨
      ∃ between, earlier = front ++ first :: between ∧ rest = between ++ exchange :: later := by
  induction front generalizing earlier with
  | nil =>
    cases earlier with
    | nil =>
      obtain ⟨hfirst, -⟩ := List.cons.inj h
      exact .inl ⟨rfl, hfirst.symm⟩
    | cons head earlier =>
      obtain ⟨rfl, hrest⟩ := List.cons.inj h
      exact .inr ⟨earlier, rfl, hrest⟩
  | cons head front ih =>
    obtain ⟨hhead, hfront⟩ := List.forall_mem_cons.mp hfront
    cases earlier with
    | nil =>
      obtain ⟨rfl, -⟩ := List.cons.inj h
      rw [hwrite] at hhead
      cases hhead
    | cons other earlier =>
      obtain ⟨rfl, hrest⟩ := List.cons.inj h
      obtain ⟨rfl, hfirst⟩ | ⟨between, rfl, hbetween⟩ := ih hfront hrest
      · exact .inl ⟨rfl, hfirst⟩
      · exact .inr ⟨between, rfl, hbetween⟩

end Program.Exchange

section Attempts

variable (index : String) (timeout : Nat) (mapping : FieldMapping)

/-- The exchange of a successful read of the document of a field. -/
def readingExchange (existing : Option StoredDocument) : Exchange :=
  ⟨.store (.get index mapping.rawField), some (.ok existing)⟩

/-- The exchange of a write over what was read. -/
def writingExchange (existing : Option StoredDocument)
    (answer : Option (Except StoreError Acknowledgement)) : Exchange :=
  ⟨.store (mergeCall index timeout existing (mergeInto mapping existing).1), answer⟩

/-- The exchanges of the attempts of a merge with a result: each attempt reads and then writes, and
a write that fails may be followed by another attempt. -/
inductive Attempts (result : Option (Except MappingError Unit)) : List Exchange → Prop
  | unwritten {exchanges : List Exchange} (h : ∀ exchange ∈ exchanges, exchange.isWrite = false)
    (hresult : result ≠ some (.ok ())) : Attempts result exchanges
  | written (existing : Option StoredDocument) (warnings : List Exchange)
    (hwarnings : ∀ exchange ∈ warnings, exchange.call? = none)
    (answer : Option (Except StoreError Acknowledgement))
    (hresult : (writingExchange index timeout mapping existing answer).isCommit = true ↔
      result = some (.ok ())) :
    Attempts result (readingExchange index mapping existing :: warnings ++
      [writingExchange index timeout mapping existing answer])
  | lost (existing : Option StoredDocument) (warnings : List Exchange)
    (hwarnings : ∀ exchange ∈ warnings, exchange.call? = none) (cause : StoreError)
    {exchanges : List Exchange} (h : Attempts result exchanges) :
    Attempts result (readingExchange index mapping existing :: warnings ++
      writingExchange index timeout mapping existing (some (.error cause)) :: exchanges)

variable {index timeout mapping} {σ : Type} {handler : Handler σ} {before after : σ}
  {exchanges : List Exchange} {result : Option (Except MappingError Unit)} {attempts : Nat}

theorem isCommit_writingExchange_iff {existing : Option StoredDocument}
    {answer : Option (Except StoreError Acknowledgement)} :
    (writingExchange index timeout mapping existing answer).isCommit = true ↔
      ∃ acknowledgement, answer = some (.ok acknowledgement) := by
  rcases answer with _ | cause | acknowledgement
  · exact iff_of_false Bool.false_ne_true fun ⟨_, heq⟩ => by cases heq
  · exact iff_of_false Bool.false_ne_true fun ⟨_, heq⟩ => by cases heq
  · exact iff_of_true rfl ⟨acknowledgement, rfl⟩

/-- What a run from a write on adds to an attempt. -/
theorem attempts_of_beforeWrite {existing : Option StoredDocument}
    (hlater : ∀ {before exchanges}, Ran handler (mergeMapping index timeout mapping attempts) before
      exchanges result after → Attempts index timeout mapping result exchanges)
    (h : Ran handler (beforeWrite index timeout mapping attempts existing) before exchanges result
      after)
    {warnings : List Exchange} (hwarnings : ∀ exchange ∈ warnings, exchange.call? = none) :
    Attempts index timeout mapping result
      (readingExchange index mapping existing :: warnings ++ exchanges) := by
  obtain ⟨reply, between, rest, -, rfl, hrest⟩ | ⟨-, rfl, rfl⟩ := h.act_cases
  · cases reply with
    | ok acknowledgement =>
      obtain ⟨rfl, rfl⟩ := hrest.done_cases
      exact .written existing warnings hwarnings _ (iff_of_true rfl rfl)
    | error cause =>
      have hfailed : ∀ value, Ran handler (.done (.error value)) between rest result after →
          Attempts index timeout mapping result (readingExchange index mapping existing ::
            warnings ++ writingExchange index timeout mapping existing (some (.error cause)) ::
              rest) := by
        intro value hdone
        obtain ⟨rfl, rfl⟩ := hdone.done_cases
        exact .written existing warnings hwarnings _ (by simp [isCommit_writingExchange_iff])
      cases cause with
      -- Only a conflict is followed by another attempt.
      | conflict name id => exact .lost existing warnings hwarnings _ (hlater hrest)
      | _ => exact hfailed _ hrest
  · exact .written existing warnings hwarnings none (by simp [isCommit_writingExchange_iff])

/-- Whatever answers, a merge goes through such attempts. -/
theorem attempts_of_ran
    (h : Ran handler (mergeMapping index timeout mapping attempts) before exchanges result after) :
    Attempts index timeout mapping result exchanges := by
  induction attempts generalizing before exchanges with
  | zero =>
    obtain ⟨rfl, rfl⟩ := h.done_cases
    exact .unwritten (fun exchange hmem => absurd hmem List.not_mem_nil) (by simp)
  | succ attempts ih =>
    rw [mergeMapping_succ] at h
    obtain ⟨reply, between, rest, -, rfl, hrest⟩ | ⟨-, rfl, rfl⟩ := h.act_cases
    · cases reply with
      | error cause =>
        obtain ⟨rfl, rfl⟩ := hrest.done_cases
        exact .unwritten (List.forall_mem_singleton.mpr rfl) (by simp)
      | ok existing =>
        rw [afterRead] at hrest
        split at hrest
        · obtain ⟨answer, middle, last, -, rfl, hlast⟩ | ⟨-, rfl, rfl⟩ := hrest.act_cases
          · have hwarning : ∀ exchange ∈ [given (.warning .unreadableMapping)],
                exchange.call? = none := List.forall_mem_singleton.mpr rfl
            exact attempts_of_beforeWrite ih hlast hwarning
          · exact .unwritten (by simp [Exchange.isWrite]) (by simp)
        · exact attempts_of_beforeWrite ih hrest fun exchange hmem =>
            absurd hmem List.not_mem_nil
    · exact .unwritten (List.forall_mem_singleton.mpr rfl) (by simp)

namespace Attempts

theorem isWrite_eq_false_of_attempt {existing : Option StoredDocument}
    {warnings : List Exchange} (hwarnings : ∀ exchange ∈ warnings, exchange.call? = none) :
    ∀ exchange ∈ readingExchange index mapping existing :: warnings, exchange.isWrite = false :=
  List.forall_mem_cons.mpr
    ⟨rfl, fun exchange hmem => Exchange.isWrite_eq_false (hwarnings exchange hmem)⟩

/-- Each write is made over what was read just before. -/
theorem write_cases (h : Attempts index timeout mapping result exchanges)
    {earlier later : List Exchange} {exchange : Exchange}
    (hsplit : exchanges = earlier ++ exchange :: later) (hwrite : exchange.isWrite = true) :
    ∃ front existing warnings answer,
      earlier = front ++ readingExchange index mapping existing :: warnings ∧
      (∀ warning ∈ warnings, warning.call? = none) ∧
      exchange = writingExchange index timeout mapping existing answer := by
  induction h generalizing earlier with
  | unwritten hnone =>
    have hmem : exchange ∈ earlier ++ exchange :: later := by simp
    have hnot := hnone exchange (hsplit ▸ hmem)
    rw [hwrite] at hnot
    cases hnot
  | written existing warnings hwarnings answer =>
    obtain ⟨rfl, rfl⟩ | ⟨between, -, hnil⟩ :=
      Exchange.split_cases (isWrite_eq_false_of_attempt hwarnings) hsplit hwrite
    · exact ⟨[], existing, warnings, answer, rfl, hwarnings, rfl⟩
    · simp at hnil
  | lost existing warnings hwarnings cause _ ih =>
    obtain ⟨rfl, rfl⟩ | ⟨between, rfl, hrest⟩ :=
      Exchange.split_cases (isWrite_eq_false_of_attempt hwarnings) hsplit hwrite
    · exact ⟨[], existing, warnings, _, rfl, hwarnings, rfl⟩
    · obtain ⟨front, read, others, answer, rfl, hothers, hexchange⟩ := ih hrest
      refine ⟨readingExchange index mapping existing :: warnings ++
        writingExchange index timeout mapping existing (some (.error cause)) :: front, read, others,
        answer, ?_, hothers, hexchange⟩
      simp

/-- A merge makes one write that takes place if it ends well, and none otherwise. -/
theorem countP_isCommit (h : Attempts index timeout mapping result exchanges) :
    (result = some (.ok ()) → exchanges.countP Exchange.isCommit = 1) ∧
      (result ≠ some (.ok ()) → exchanges.countP Exchange.isCommit = 0) := by
  have hattempt : ∀ {existing warnings},
      (∀ exchange ∈ warnings, exchange.call? = none) →
      (readingExchange index mapping existing :: warnings).countP Exchange.isCommit = 0 := by
    intro existing warnings hwarnings
    refine List.countP_eq_zero.mpr fun exchange hmem => ?_
    have hnot := Exchange.isCommit_eq_false (isWrite_eq_false_of_attempt hwarnings exchange hmem)
    exact ne_true_of_eq_false hnot
  induction h with
  | unwritten hnone hresult =>
    have hzero := List.countP_eq_zero.mpr fun exchange hmem =>
      ne_true_of_eq_false (Exchange.isCommit_eq_false (hnone exchange hmem))
    exact ⟨fun hok => absurd hok hresult, fun _ => hzero⟩
  | written existing warnings hwarnings answer hresult =>
    rw [List.countP_append, hattempt hwarnings, Nat.zero_add]
    constructor
    · intro hok
      exact List.countP_singleton.trans (if_pos (hresult.mpr hok))
    · intro hnot
      exact List.countP_singleton.trans (if_neg (mt hresult.mp hnot))
  | lost existing warnings hwarnings cause _ ih =>
    have hcommit : ¬(writingExchange index timeout mapping existing
        (some (.error cause))).isCommit = true := by
      simp [isCommit_writingExchange_iff]
    rw [List.countP_append, hattempt hwarnings, Nat.zero_add, List.countP_cons_of_neg hcommit]
    exact ih

end Attempts

end Attempts

end SigmaCatalog
