import SigmaCatalog.Store.Memory

/-!
# Numbered writes

An index numbers its writes, so every document in it bears a number below that of the next write.
A write therefore never gives a document a number that an earlier revision had, and two revisions
of a document with the same number are the same revision.  All that a call can do to a store is
said once, as its effect; what calls keep is read off that.
-/

namespace SigmaCatalog.Memory

/-- Whether every document of an index bears a number below that of the next write. -/
def Index.Numbered (index : Index) : Prop :=
  ∀ id document, index.documents.get? id = some document → document.seqNo < index.nextSeqNo

/-- Whether this is so in every index. -/
def Numbered (memory : Memory) : Prop :=
  ∀ name found, memory.index? name = some found → found.Numbered

theorem Index.Numbered.put {index : Index} (h : index.Numbered) (id : String) (body : Json) :
    (index.put id body).Numbered := by
  intro other document hdocument
  change document.seqNo < index.nextSeqNo + 1
  rw [Index.put, Table.get?_insert] at hdocument
  split at hdocument
  · obtain rfl := Option.some.inj hdocument
    exact Int.lt_succ index.nextSeqNo
  · exact Int.lt_add_one_of_le (Int.le_of_lt (h other document hdocument))

theorem Index.Numbered.erase {index : Index} (h : index.Numbered) (id : String) :
    ({ index with documents := index.documents.erase id } : Index).Numbered := by
  intro other document hdocument
  rw [Table.get?_erase] at hdocument
  split at hdocument
  · cases hdocument
  · exact h other document hdocument

theorem numbered_empty : empty.Numbered := by
  intro name found hfound
  cases hfound

theorem Numbered.setIndex {memory : Memory} (h : memory.Numbered) {index : Index}
    (hindex : index.Numbered) (name : String) : (memory.setIndex name index).Numbered := by
  intro other found hfound
  rw [index?_setIndex] at hfound
  split at hfound
  · exact Option.some.inj hfound ▸ hindex
  · exact h other found hfound

/-! ## Calls -/

section Calls

variable (memory : Memory) (name id : String)

/-- Reading a document changes nothing and returns what is there. -/
theorem perform_get :
    memory.perform (.get name id) =
      (match memory.index? name with
        | some found => .ok (found.documents.get? id)
        | none => .error (.noIndex name), memory) := by
  rw [perform, withIndex]
  cases memory.index? name with
  | none => rfl
  | some found => rfl

variable {memory name id} in
theorem exists_of_get {read : Option StoredDocument}
    (hread : (memory.perform (.get name id)).1 = .ok read) :
    ∃ found, memory.index? name = some found ∧ memory.document? name id = read := by
  rw [perform_get] at hread
  cases hfound : memory.index? name with
  | none =>
    rw [hfound] at hread
    cases hread
  | some found =>
    rw [hfound] at hread
    refine ⟨found, rfl, ?_⟩
    rw [document?, hfound]
    exact Except.ok.inj hread

variable {memory name} in
/-- In an index that exists, a write takes place exactly when its condition holds. -/
theorem perform_write_of_index {found : Index} (hfound : memory.index? name = some found)
    (body : Json) (condition : Option Precondition) (timeout : Nat) (refresh : RefreshPolicy) :
    memory.perform (.write name id body condition timeout refresh) =
      if permits condition (memory.document? name id) then
        (.ok (found.acknowledge id), memory.setIndex name (found.put id body))
      else (.error (.conflict name id), memory) := by
  rw [perform, withIndex, hfound, document?, hfound]
  rfl

/-- A write takes place where its condition holds; otherwise nothing changes. -/
theorem perform_write (body : Json) (condition : Option Precondition) (timeout : Nat)
    (refresh : RefreshPolicy) :
    (∃ found, memory.index? name = some found ∧
      permits condition (found.documents.get? id) = true ∧
      memory.perform (.write name id body condition timeout refresh) =
        (.ok (found.acknowledge id), memory.setIndex name (found.put id body))) ∨
    ∃ cause, memory.perform (.write name id body condition timeout refresh) =
      (.error cause, memory) := by
  cases hfound : memory.index? name with
  | none =>
    refine .inr ⟨.noIndex name, ?_⟩
    rw [perform, withIndex, hfound]
  | some found =>
    have hdocument : memory.document? name id = found.documents.get? id := by
      rw [document?, hfound]
      rfl
    rw [perform_write_of_index id hfound, hdocument]
    by_cases hpermits : permits condition (found.documents.get? id) = true
    · exact .inl ⟨found, rfl, hpermits, if_pos hpermits⟩
    · exact .inr ⟨_, if_neg hpermits⟩

variable {memory} {name}

theorem document?_of_index {found : Index} (hfound : memory.index? name = some found) :
    memory.document? name id = found.documents.get? id := by
  rw [document?, hfound, Option.bind_some]

/-- In an index that exists, reading a document returns what is there. -/
theorem perform_get_of_index {found : Index} (hfound : memory.index? name = some found) :
    memory.perform (.get name id) = (.ok (memory.document? name id), memory) := by
  rw [perform_get, hfound, document?_of_index id hfound]

variable (memory name) in
theorem perform_indexExists :
    memory.perform (.indexExists name) = (.ok (memory.index? name).isSome, memory) :=
  rfl

theorem perform_createIndex_of_none (h : memory.index? name = none) (schema : Json) :
    memory.perform (.createIndex name schema) =
      (.ok true, memory.setIndex name (.empty schema)) := by
  rw [perform, h]

theorem perform_createIndex_of_some {found : Index} (h : memory.index? name = some found)
    (schema : Json) :
    memory.perform (.createIndex name schema) = (.error (.indexExists name), memory) := by
  rw [perform, h]

variable (memory name) in
theorem isSome_index?_setIndex (index : Index) :
    ((memory.setIndex name index).index? name).isSome = true := by
  rw [index?_setIndex, if_pos rfl, Option.isSome_some]

/-- What is there after a write. -/
theorem document?_put {found : Index} (hfound : memory.index? name = some found) (body : Json)
    (other : String) :
    (memory.setIndex name (found.put id body)).document? name other =
      if other = id then some {
        id
        version := (found.acknowledge id).version
        seqNo := found.nextSeqNo
        primaryTerm
        source := body }
      else memory.document? name other := by
  rw [document?, index?_setIndex, if_pos rfl, Option.bind_some, Index.put, Table.get?_insert,
    document?, hfound, Option.bind_some]

end Calls

/-! ## Effects -/

/-- Whether a call, as it was answered, has written a document or removed it. -/
def touches (index id : String) : (call : Call) → call.Reply → Bool
  | .write name other .., .ok _ => name = index ∧ other = id
  | .delete name other _, .ok (some _) => name = index ∧ other = id
  | _, _ => false

/-- All that a call can do to a store. -/
inductive Effect (memory : Memory) : (call : Call) → call.Reply → Memory → Prop
  | none {call : Call} {reply : call.Reply}
    (h : ∀ index id, touches index id call reply = false) : Effect memory call reply memory
  | created {name : String} {schema : Json} (h : memory.index? name = .none) :
    Effect memory (.createIndex name schema) (.ok true) (memory.setIndex name (.empty schema))
  | written {name id : String} {body : Json} {condition : Option Precondition} {timeout : Nat}
    {refresh : RefreshPolicy} {found : Index} (h : memory.index? name = some found)
    (hpermits : permits condition (found.documents.get? id) = true) :
    Effect memory (.write name id body condition timeout refresh) (.ok (found.acknowledge id))
      (memory.setIndex name (found.put id body))
  | removed {name id : String} {refresh : RefreshPolicy} {found : Index}
    {document : StoredDocument} (h : memory.index? name = some found)
    (hdocument : found.documents.get? id = some document) :
    Effect memory (.delete name id refresh)
      (.ok (some { id := document.id, version := document.version + 1, status := .deleted }))
      (memory.setIndex name { found with documents := found.documents.erase id })

theorem effect (memory : Memory) (call : Call) :
    memory.Effect call (memory.perform call).1 (memory.perform call).2 := by
  cases call with
  | indexExists name => exact .none fun _ _ => rfl
  | createIndex name schema =>
    rw [perform]
    cases hfound : memory.index? name with
    | none => exact .created hfound
    | some found => exact .none fun _ _ => rfl
  | write name id body condition timeout refresh =>
    obtain ⟨found, hfound, hpermits, hperform⟩ | ⟨cause, hperform⟩ :=
      perform_write memory name id body condition timeout refresh
    · rw [hperform]
      exact .written hfound hpermits
    · rw [hperform]
      exact .none fun _ _ => rfl
  | get name id =>
    rw [perform_get]
    exact .none fun _ _ => rfl
  | delete name id refresh =>
    rw [perform, withIndex]
    cases hfound : memory.index? name with
    | none => exact .none fun _ _ => rfl
    | some found =>
      cases hdocument : found.documents.get? id with
      | none =>
        simp only [hdocument]
        exact .none fun _ _ => rfl
      | some document =>
        simp only [hdocument]
        exact .removed hfound hdocument

/-- Whether an index has given a number to a write. -/
def Given (memory : Memory) (index : String) (seqNo : Int) : Prop :=
  ∃ found, memory.index? index = some found ∧ seqNo < found.nextSeqNo

section Effects

variable {memory after : Memory} {call : Call} {reply : call.Reply} {index id : String}

theorem document?_erase {name : String} {found : Index} (h : memory.index? name = some found)
    (other : String) :
    (memory.setIndex name { found with documents := found.documents.erase id }).document? name
      other = if other = id then none else memory.document? name other := by
  rw [document?, index?_setIndex, if_pos rfl, Option.bind_some, Table.get?_erase, document?, h,
    Option.bind_some]

/-- Setting an index leaves the documents as they are that are the same in it. -/
theorem document?_setIndex_eq {name : String} {found later : Index}
    (hfound : memory.index? name = some found)
    (hsame : index = name → later.documents.get? id = found.documents.get? id) :
    (memory.setIndex name later).document? index id = memory.document? index id := by
  rw [document?, index?_setIndex, document?]
  by_cases hname : index = name
  · subst hname
    rw [if_pos rfl, hfound]
    exact hsame rfl
  · rw [if_neg hname]

theorem setIndex_grows {name : String} {current later found : Index}
    (hcurrent : memory.index? name = some current) (hle : current.nextSeqNo ≤ later.nextSeqNo)
    (hfound : memory.index? index = some found) :
    ∃ next, (memory.setIndex name later).index? index = some next ∧
      found.nextSeqNo ≤ next.nextSeqNo := by
  rw [index?_setIndex]
  by_cases hname : index = name
  · subst hname
    obtain rfl := Option.some.inj (hfound.symm.trans hcurrent)
    exact ⟨later, if_pos rfl, hle⟩
  · exact ⟨found, (if_neg hname).trans hfound, Int.le_refl _⟩

/-- A call that does not touch a document leaves it as it is. -/
theorem Effect.document?_eq (h : memory.Effect call reply after)
    (huntouched : touches index id call reply = false) :
    after.document? index id = memory.document? index id := by
  cases h with
  | none => rfl
  | @created name schema hnew =>
    rw [document?, index?_setIndex, document?]
    by_cases hname : index = name
    · subst hname
      rw [if_pos rfl, hnew]
      rfl
    · rw [if_neg hname]
  | written hfound =>
    refine document?_setIndex_eq hfound fun hname => ?_
    have hother := of_decide_eq_false huntouched
    rw [Index.put, Table.get?_insert, if_neg fun hid => hother ⟨hname.symm, hid.symm⟩]
  | removed hfound =>
    refine document?_setIndex_eq hfound fun hname => ?_
    have hother := of_decide_eq_false huntouched
    rw [Table.get?_erase, if_neg fun hid => hother ⟨hname.symm, hid.symm⟩]

/-- A document that is there after a call was there before, or the call has written it. -/
theorem Effect.document_cases (h : memory.Effect call reply after) {document : StoredDocument}
    (hdocument : after.document? index id = some document) :
    memory.document? index id = some document ∨
      ∃ body condition timeout refresh found,
        call = .write index id body condition timeout refresh ∧
        memory.index? index = some found ∧
        document = {
          id
          version := (found.acknowledge id).version
          seqNo := found.nextSeqNo
          primaryTerm
          source := body } := by
  cases htouched : touches index id call reply with
  | false => exact .inl (h.document?_eq htouched ▸ hdocument)
  | true =>
    right
    cases h with
    | none huntouched =>
      rw [huntouched index id] at htouched
      cases htouched
    | created => cases htouched
    | @written name other body condition timeout refresh found hfound =>
      obtain ⟨rfl, rfl⟩ : name = index ∧ other = id := of_decide_eq_true htouched
      rw [document?_put other hfound, if_pos rfl] at hdocument
      exact ⟨body, condition, timeout, refresh, found, rfl, hfound, (Option.some.inj hdocument).symm⟩
    | @removed name other refresh found last hfound =>
      obtain ⟨rfl, rfl⟩ : name = index ∧ other = id := of_decide_eq_true htouched
      rw [document?_erase hfound, if_pos rfl] at hdocument
      cases hdocument

/-- No index is ever removed, and its numbers grow. -/
theorem Effect.grows (h : memory.Effect call reply after) {found : Index}
    (hfound : memory.index? index = some found) :
    ∃ later, after.index? index = some later ∧ found.nextSeqNo ≤ later.nextSeqNo := by
  cases h with
  | none => exact ⟨found, hfound, Int.le_refl _⟩
  | @created name schema hnew =>
    have hname : index ≠ name := by
      rintro rfl
      rw [hnew] at hfound
      cases hfound
    refine ⟨found, ?_, Int.le_refl _⟩
    rw [index?_setIndex, if_neg hname, hfound]
  | @written _ _ _ _ _ _ current hcurrent =>
    exact setIndex_grows hcurrent (Int.le_of_lt (Int.lt_succ current.nextSeqNo)) hfound
  | removed hcurrent => exact setIndex_grows hcurrent (Int.le_refl _) hfound

theorem Given.step {seqNo : Int} (h : memory.Given index seqNo)
    (heffect : memory.Effect call reply after) : after.Given index seqNo := by
  obtain ⟨found, hfound, hlt⟩ := h
  obtain ⟨later, hlater, hle⟩ := heffect.grows hfound
  exact ⟨later, hlater, Int.lt_of_lt_of_le hlt hle⟩

/-- A document that a call has written bears a number that was never given before. -/
theorem Effect.fresh (h : memory.Effect call reply after)
    (htouched : touches index id call reply = true) {document : StoredDocument}
    (hdocument : after.document? index id = some document) :
    ¬memory.Given index document.seqNo := by
  cases h with
  | none huntouched =>
    rw [huntouched index id] at htouched
    cases htouched
  | created => cases htouched
  | @written name other body condition timeout refresh found hfound =>
    obtain ⟨rfl, rfl⟩ : name = index ∧ other = id := of_decide_eq_true htouched
    rw [document?_put other hfound, if_pos rfl] at hdocument
    obtain rfl := Option.some.inj hdocument
    rintro ⟨current, hcurrent, hlt⟩
    obtain rfl := Option.some.inj (hfound.symm.trans hcurrent)
    exact Int.lt_irrefl _ hlt
  | @removed name other refresh found last hfound =>
    obtain ⟨rfl, rfl⟩ : name = index ∧ other = id := of_decide_eq_true htouched
    rw [document?_erase hfound, if_pos rfl] at hdocument
    cases hdocument

theorem Numbered.given (h : memory.Numbered) {document : StoredDocument}
    (hdocument : memory.document? index id = some document) :
    memory.Given index document.seqNo := by
  obtain ⟨found, hfound, hget⟩ := Option.bind_eq_some_iff.mp hdocument
  exact ⟨found, hfound, h index found hfound id document hget⟩

end Effects

theorem Numbered.step {memory after : Memory} (h : memory.Numbered) {call : Call}
    {reply : call.Reply} (heffect : memory.Effect call reply after) : after.Numbered := by
  cases heffect with
  | none => exact h
  | created => exact h.setIndex (fun id document hdocument => by cases hdocument) _
  | written hfound => exact h.setIndex ((h _ _ hfound).put _ _) _
  | removed hfound => exact h.setIndex ((h _ _ hfound).erase _) _

theorem Numbered.perform {memory : Memory} (h : memory.Numbered) (call : Call) :
    (memory.perform call).2.Numbered :=
  h.step (memory.effect call)

/-- Whatever calls have been made of a store, its documents are numbered. -/
theorem Numbered.performAll {memory : Memory} (h : memory.Numbered) (calls : List Call) :
    (memory.performAll calls).Numbered := by
  induction calls generalizing memory with
  | nil => exact h
  | cons call calls ih => exact ih (h.perform call)

end SigmaCatalog.Memory
