import SigmaCatalog.Proofs.Store.Memory

/-!
# Writes over what was read

A write that depends on what was read takes place exactly when the document has been neither written
nor removed since.  Versions start again when a document is created anew, but an index gives no
number twice: once a revision has been overwritten or removed, no document ever bears its number
again.
-/

namespace SigmaCatalog.Memory

/-- Whether some of the calls, made one after another, write a document or remove it. -/
def touchesAll (memory : Memory) (index id : String) : List Call → Bool
  | [] => false
  | call :: calls =>
    touches index id call (memory.perform call).1 ||
      (memory.perform call).2.touchesAll index id calls

/-- Whether a revision of a document has been overwritten or removed. -/
structure Superseded (memory : Memory) (index id : String) (seqNo : Int) : Prop where
  given : memory.Given index seqNo
  gone : ∀ document, memory.document? index id = some document → document.seqNo ≠ seqNo

section Steps

variable {memory after : Memory} {call : Call} {reply : call.Reply} {index id : String}

/-- After a call that touches a document, the document is gone or bears another number than any
before. -/
theorem Effect.gone (h : memory.Effect call reply after)
    (htouched : touches index id call reply = true) {seqNo : Int}
    (hgiven : memory.Given index seqNo) {document : StoredDocument}
    (hdocument : after.document? index id = some document) : document.seqNo ≠ seqNo := by
  rintro rfl
  exact h.fresh htouched hdocument hgiven

theorem Superseded.step {seqNo : Int} (h : memory.Superseded index id seqNo)
    (heffect : memory.Effect call reply after) : after.Superseded index id seqNo := by
  constructor
  · exact h.given.step heffect
  · intro document hdocument
    cases htouched : touches index id call reply with
    | true => exact heffect.gone htouched h.given hdocument
    | false =>
      rw [heffect.document?_eq htouched] at hdocument
      exact h.gone document hdocument

end Steps

section Runs

variable {memory : Memory} {index id : String}

theorem Superseded.performAll {seqNo : Int} (h : memory.Superseded index id seqNo)
    (calls : List Call) : (memory.performAll calls).Superseded index id seqNo := by
  induction calls generalizing memory with
  | nil => exact h
  | cons call calls ih => exact ih (h.step (memory.effect call))

/-- What was read is there as long as no call touches it, and it is superseded from the first call
on that does. -/
theorem performAll_read {read : StoredDocument} (hread : memory.document? index id = some read)
    (hgiven : memory.Given index read.seqNo) (calls : List Call) :
    if memory.touchesAll index id calls then
      (memory.performAll calls).Superseded index id read.seqNo
    else (memory.performAll calls).document? index id = some read := by
  induction calls generalizing memory with
  | nil => exact hread
  | cons call calls ih =>
    have heffect := memory.effect call
    rw [touchesAll]
    cases htouched : touches index id call (memory.perform call).1 with
    | true =>
      -- Whatever is created in its place later on cannot bring the revision back.
      have hsuperseded : (memory.perform call).2.Superseded index id read.seqNo := by
        constructor
        · exact hgiven.step heffect
        · exact fun document => heffect.gone htouched hgiven
      rw [Bool.true_or, if_pos rfl]
      exact hsuperseded.performAll calls
    | false =>
      rw [Bool.false_or]
      exact ih ((heffect.document?_eq htouched).trans hread) (hgiven.step heffect)

theorem index?_performAll {found : Index} (hfound : memory.index? index = some found)
    (calls : List Call) : ∃ later, (memory.performAll calls).index? index = some later := by
  induction calls generalizing memory found with
  | nil => exact ⟨found, hfound⟩
  | cons call calls ih =>
    obtain ⟨later, hlater, -⟩ := (memory.effect call).grows hfound
    exact ih hlater

/-- The condition that what was read is still there holds as long as no call touches it. -/
theorem permits_performAll {read : StoredDocument}
    (hread : memory.document? index id = some read) (hgiven : memory.Given index read.seqNo)
    (calls : List Call) :
    permits (some (.asRead (some read))) ((memory.performAll calls).document? index id) =
      !memory.touchesAll index id calls := by
  have hrun := performAll_read hread hgiven calls
  cases htouched : memory.touchesAll index id calls with
  | false =>
    have hkept : (memory.performAll calls).document? index id = some read := by
      rwa [htouched] at hrun
    rw [hkept]
    simp [permits, Precondition.asRead, Precondition.holds]
  | true =>
    have hsuperseded : (memory.performAll calls).Superseded index id read.seqNo := by
      rwa [htouched] at hrun
    cases hdocument : (memory.performAll calls).document? index id with
    | none => rfl
    | some document =>
      have hne := hsuperseded.gone document hdocument
      simp [permits, Precondition.asRead, Precondition.holds, hne]

end Runs

section Writes

variable {memory : Memory} {index id : String} {body : Json} {condition : Option Precondition}
  {timeout : Nat} {refresh : RefreshPolicy}

theorem exists_ok_iff {found : Index} (hfound : memory.index? index = some found) :
    (∃ acknowledgement,
      (memory.perform (.write index id body condition timeout refresh)).1 = .ok acknowledgement) ↔
        permits condition (memory.document? index id) = true := by
  rw [perform_write_of_index id hfound]
  split
  · next hpermits => exact iff_of_true ⟨_, rfl⟩ hpermits
  · next hpermits => exact iff_of_false (fun ⟨_, hok⟩ => by cases hok) hpermits

/-- A write that takes place sets its document and no other. -/
theorem document?_of_ok {found : Index} (hfound : memory.index? index = some found)
    {acknowledgement : Acknowledgement}
    (hok : (memory.perform (.write index id body condition timeout refresh)).1 =
      .ok acknowledgement) :
    ((memory.perform (.write index id body condition timeout refresh)).2.document? index id).map
        StoredDocument.source = some body ∧
      ∀ otherIndex otherId, ¬(otherIndex = index ∧ otherId = id) →
        (memory.perform (.write index id body condition timeout refresh)).2.document? otherIndex
          otherId = memory.document? otherIndex otherId := by
  constructor
  · have hpermits := (exists_ok_iff hfound).mp ⟨acknowledgement, hok⟩
    rw [perform_write_of_index id hfound, if_pos hpermits, document?_put id hfound, if_pos rfl]
    rfl
  · intro otherIndex otherId hother
    refine (memory.effect _).document?_eq ?_
    rw [hok]
    exact decide_eq_false fun heq => hother ⟨heq.1.symm, heq.2.symm⟩

/-- A write refused by an index that exists has met a conflict and changes nothing. -/
theorem conflict_of_error {found : Index} (hfound : memory.index? index = some found)
    {cause : StoreError}
    (hcause : (memory.perform (.write index id body condition timeout refresh)).1 =
      .error cause) :
    cause = .conflict index id ∧
      (memory.perform (.write index id body condition timeout refresh)).2 = memory := by
  rw [perform_write_of_index id hfound] at hcause ⊢
  split at hcause
  · cases hcause
  · next hpermits =>
    rw [if_neg hpermits]
    exact ⟨(Except.error.inj hcause).symm, rfl⟩

end Writes

/-- A write over what was read takes place exactly when no write and no removal of the document has
taken place since, or, if nothing was there, when nothing is there.  It then sets that document and
no other; otherwise it meets a conflict and leaves the store as it is. -/
theorem compare_and_set (before between : List Call) (index id : String)
    (read : Option StoredDocument) (body : Json) (timeout : Nat) (refresh : RefreshPolicy)
    (hread : ((empty.performAll before).perform (.get index id)).1 = .ok read) :
    let reading := (empty.performAll before).perform (.get index id)
    let current := reading.2.performAll between
    let attempt := current.perform (.write index id body (some (.asRead read)) timeout refresh)
    (read ≠ none →
      ((∃ acknowledgement, attempt.1 = .ok acknowledgement) ↔
        reading.2.touchesAll index id between = false)) ∧
    (read = none →
      ((∃ acknowledgement, attempt.1 = .ok acknowledgement) ↔
        current.document? index id = none)) ∧
    (∀ acknowledgement, attempt.1 = .ok acknowledgement →
      (attempt.2.document? index id).map StoredDocument.source = some body ∧
      ∀ otherIndex otherId, ¬(otherIndex = index ∧ otherId = id) →
        attempt.2.document? otherIndex otherId = current.document? otherIndex otherId) ∧
    ∀ cause, attempt.1 = .error cause → cause = .conflict index id ∧ attempt.2 = current := by
  intro reading current attempt
  have hunchanged : reading.2 = empty.performAll before := by
    change ((empty.performAll before).perform (.get index id)).2 = _
    rw [perform_get]
  obtain ⟨found, hfound, hdocument⟩ := exists_of_get hread
  have hnumbered := numbered_empty.performAll before
  rw [← hunchanged] at hfound hdocument hnumbered
  obtain ⟨present, hpresent⟩ := index?_performAll hfound between
  have hsuccess : (∃ acknowledgement, attempt.1 = .ok acknowledgement) ↔
      permits (some (.asRead read)) (current.document? index id) = true :=
    exists_ok_iff hpresent
  refine ⟨?_, ?_, ?_, ?_⟩
  · intro hsome
    obtain ⟨document, rfl⟩ := Option.ne_none_iff_exists'.mp hsome
    have hgiven : reading.2.Given index document.seqNo := hnumbered.given hdocument
    rw [hsuccess, permits_performAll hdocument hgiven between, Bool.not_eq_true']
  · rintro rfl
    rw [hsuccess]
    exact Option.isNone_iff_eq_none
  · intro acknowledgement hok
    exact document?_of_ok hpresent hok
  · intro cause hcause
    exact conflict_of_error hpresent hcause

/-- An index with one document. -/
def publishedCalls : List Call :=
  [.createIndex "rules" .null, .write "rules" "r" (.string "body") none 0 .none]

/-- The document is removed and created anew with the same content. -/
def republishedCalls : List Call :=
  [.delete "rules" "r" .none, .write "rules" "r" (.string "body") none 0 .none]

theorem compare_and_set_republished :
    let reading := (empty.performAll publishedCalls).perform (.get "rules" "r")
    let current := reading.2.performAll republishedCalls
    let attempt := current.perform
      (.write "rules" "r" (.string "new") (some (.asRead (some ⟨"r", 1, 0, 1, .string "body"⟩))) 0
        .none)
    reading.1 = .ok (some ⟨"r", 1, 0, 1, .string "body"⟩) ∧
      current.document? "rules" "r" = some ⟨"r", 1, 1, 1, .string "body"⟩ ∧
      attempt.1 = .error (.conflict "rules" "r") ∧ attempt.2 = current := by
  intro reading current attempt
  have hread : reading.1 = .ok (some ⟨"r", 1, 0, 1, .string "body"⟩) := rfl
  obtain ⟨hiff, -, -, hfailure⟩ := compare_and_set publishedCalls republishedCalls "rules" "r"
    (some ⟨"r", 1, 0, 1, .string "body"⟩) (.string "new") 0 .none hread
  refine ⟨hread, rfl, ?_⟩
  cases hattempt : attempt.1 with
  | ok acknowledgement =>
    have huntouched := (hiff (Option.some_ne_none _)).mp ⟨acknowledgement, hattempt⟩
    cases huntouched
  | error cause =>
    obtain ⟨rfl, hstore⟩ := hfailure cause hattempt
    exact ⟨rfl, hstore⟩

end SigmaCatalog.Memory
