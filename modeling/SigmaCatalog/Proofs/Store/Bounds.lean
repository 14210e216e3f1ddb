import SigmaCatalog.Proofs.Store.Memory

/-!
# Bounds on the numbers of a store

A document is either as it was before a call or as the call has written it.  A write gives a document
the version after its last one and the next number of its index, so the numbers that a store has
given are bounded by the number of calls that were made of it.
-/

namespace SigmaCatalog.Memory

variable {memory after : Memory} {call : Call} {reply : call.Reply} {index id : String}

theorem setIndex_cases {name : String} {later found : Index}
    (hfound : (memory.setIndex name later).index? index = some found) :
    index = name ∧ found = later ∨ memory.index? index = some found := by
  rw [index?_setIndex] at hfound
  split at hfound
  · next hname => exact .inl ⟨hname, (Option.some.inj hfound).symm⟩
  · exact .inr hfound

/-- The next number of an index is as it was before a call, one more, or zero in a new index. -/
theorem Effect.next_cases (h : memory.Effect call reply after) {found : Index}
    (hfound : after.index? index = some found) :
    found.nextSeqNo = 0 ∨ ∃ last, memory.index? index = some last ∧
      (found.nextSeqNo = last.nextSeqNo ∨ found.nextSeqNo = last.nextSeqNo + 1) := by
  cases h with
  | none => exact .inr ⟨found, hfound, .inl rfl⟩
  | created =>
    rcases setIndex_cases hfound with ⟨-, rfl⟩ | hold
    · exact .inl rfl
    · exact .inr ⟨found, hold, .inl rfl⟩
  | written hlast =>
    rcases setIndex_cases hfound with ⟨rfl, rfl⟩ | hold
    · exact .inr ⟨_, hlast, .inr rfl⟩
    · exact .inr ⟨found, hold, .inl rfl⟩
  | removed hlast =>
    rcases setIndex_cases hfound with ⟨rfl, rfl⟩ | hold
    · exact .inr ⟨_, hlast, .inl rfl⟩
    · exact .inr ⟨found, hold, .inl rfl⟩

/-- Whether the numbers that a store has given are within a bound. -/
structure Within (memory : Memory) (bound : Int) : Prop where
  nonneg : 0 ≤ bound
  version : ∀ index id document, memory.document? index id = some document →
    0 ≤ document.version ∧ document.version ≤ bound
  seqNo : ∀ index id document, memory.document? index id = some document →
    0 ≤ document.seqNo ∧ document.seqNo ≤ bound
  term : ∀ index id document, memory.document? index id = some document →
    document.primaryTerm = primaryTerm
  next : ∀ index found, memory.index? index = some found →
    0 ≤ found.nextSeqNo ∧ found.nextSeqNo ≤ bound

section Bounds

variable {bound : Int}

theorem within_empty : empty.Within 0 where
  nonneg := Int.le_refl 0
  version index id document hdocument := by cases hdocument
  seqNo index id document hdocument := by cases hdocument
  term index id document hdocument := by cases hdocument
  next index found hfound := by cases hfound

theorem Within.acknowledge (h : memory.Within bound) {found : Index}
    (hfound : memory.index? index = some found) (id : String) :
    0 ≤ (found.acknowledge id).version ∧ (found.acknowledge id).version ≤ bound + 1 := by
  have hnonneg := h.nonneg
  unfold Index.acknowledge
  split
  · next document hdocument =>
    rw [← document?_of_index id hfound] at hdocument
    obtain ⟨hlow, hhigh⟩ := h.version index id document hdocument
    exact ⟨by simp only; omega, by simp only; omega⟩
  · exact ⟨by simp only; omega, by simp only; omega⟩

/-- A call adds at most one to the numbers that a store has given. -/
theorem Within.step (h : memory.Within bound) (heffect : memory.Effect call reply after) :
    after.Within (bound + 1) where
  nonneg := by
    have hnonneg := h.nonneg
    omega
  version index id document hdocument := by
    rcases heffect.document_cases hdocument with hold | ⟨_, _, _, _, found, _, hfound, rfl⟩
    · obtain ⟨hlow, hhigh⟩ := h.version index id document hold
      omega
    · exact h.acknowledge hfound id
  seqNo index id document hdocument := by
    rcases heffect.document_cases hdocument with hold | ⟨_, _, _, _, found, _, hfound, rfl⟩
    · obtain ⟨hlow, hhigh⟩ := h.seqNo index id document hold
      omega
    · obtain ⟨hlow, hhigh⟩ := h.next index found hfound
      exact ⟨hlow, by simp only; omega⟩
  term index id document hdocument := by
    rcases heffect.document_cases hdocument with hold | ⟨_, _, _, _, found, _, hfound, rfl⟩
    · exact h.term index id document hold
    · rfl
  next index found hfound := by
    have hnonneg := h.nonneg
    rcases heffect.next_cases hfound with hzero | ⟨last, hlast, hnext⟩
    · omega
    · obtain ⟨hlow, hhigh⟩ := h.next index last hlast
      omega

end Bounds

end SigmaCatalog.Memory
