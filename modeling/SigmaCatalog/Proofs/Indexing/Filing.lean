import SigmaCatalog.Proofs.Indexing.Run
import SigmaCatalog.Proofs.Rule.Detection
import SigmaCatalog.Proofs.Store.Reaching

/-!
# What a request comes to

What comes of a request is decided by the rule alone: it is refused, or it is written under the
identifier of its rule and ends with the acknowledgement of that write.  The store cannot make it
fail, as long as nobody removes the index of rules; neither can the keeping of field mappings, which
works on an index of its own.
-/

namespace SigmaCatalog

open Program

/-- The compiled rule of a request, or why it is refused. -/
def Toolchain.verdict (tools : Toolchain) (request : IndexRequest) :
    Option (Except IndexError CompiledRule) :=
  match request.validate with
  | .error fault => some (.error (.invalidRequest fault))
  | .ok () => (tools.compileTwice request).outcome.map (Except.map Prod.fst)

theorem Toolchain.verdict_congr (tools : Toolchain) {request other : IndexRequest}
    (htext : request.text = other.text) (hcategory : request.category = other.category) :
    tools.verdict request = tools.verdict other := by
  cases request
  cases other
  subst htext hcategory
  rfl

theorem Toolchain.compiled_of_verdict {tools : Toolchain} {request : IndexRequest}
    {compiled : CompiledRule} (h : tools.verdict request = some (.ok compiled)) :
    request.validate = .ok () ∧
      ∃ table, (tools.compileTwice request).outcome = some (.ok (compiled, table)) := by
  unfold verdict at h
  split at h
  · cases h
  · next hvalid =>
    obtain ⟨outcome, houtcome, hmap⟩ := Option.map_eq_some_iff.mp h
    obtain ⟨⟨first, table⟩, rfl, hfirst⟩ := ok_of_map hmap
    obtain rfl : first = compiled := hfirst
    exact ⟨hvalid, table, houtcome⟩

theorem Toolchain.refused_of_verdict {tools : Toolchain} {request : IndexRequest}
    {cause : IndexError} (h : tools.verdict request = some (.error cause)) :
    (∃ fault, request.validate = .error fault ∧ cause = .invalidRequest fault) ∨
      (request.validate = .ok () ∧ (tools.compileTwice request).outcome = some (.error cause)) := by
  unfold verdict at h
  split at h
  · next fault hinvalid =>
    exact .inl ⟨fault, hinvalid, (Except.error.inj (Option.some.inj h)).symm⟩
  · next hvalid =>
    obtain ⟨outcome, houtcome, hmap⟩ := Option.map_eq_some_iff.mp h
    obtain rfl := error_of_map hmap
    exact .inr ⟨hvalid, houtcome⟩

/-- A preview gives the verdict on every request with the same text and category. -/
theorem Toolchain.preview_eq_verdict (tools : Toolchain) (text category : String) (force : Bool)
    (refresh : RefreshPolicy) :
    (tools.preview text category).outcome =
      tools.verdict (.make text category force refresh) := by
  have hsame : tools.verdict (.make text category force refresh) =
      tools.verdict (.make text category false .none) :=
    tools.verdict_congr rfl rfl
  rw [hsame, preview, verdict]
  cases (IndexRequest.make text category false .none).validate with
  | error fault => rfl
  | ok _ =>
    simp only [Pass.followedBy]
    cases (tools.compileTwice (.make text category false .none)).outcome with
    | none => rfl
    | some compiled =>
      cases compiled with
      | error cause => rfl
      | ok compiled => rfl

/-- The toolchain of this library has a verdict on every request. -/
theorem Toolchain.exists_verdict (request : IndexRequest) :
    ∃ result, standard.verdict request = some result := by
  unfold verdict
  split
  · exact ⟨_, rfl⟩
  · suffices ∃ outcome, (standard.compileTwice request).outcome = some outcome by
      obtain ⟨outcome, houtcome⟩ := this
      exact ⟨_, by rw [houtcome]; rfl⟩
    have hstrict (table : Table String) :
        ∃ outcome, (standard.compileStrictly request table).outcome = some outcome := by
      simp only [compileStrictly, standard, standardCompiler]
      cases compile request.text table true with
      | ok artifact => exact ⟨_, rfl⟩
      | error cause => exact ⟨_, rfl⟩
    have hdiscover : ∃ outcome, (standard.discover request).outcome = some outcome := by
      simp only [discover, standard, standardCompiler]
      cases compile request.text ∅ false with
      | ok artifact => exact ⟨_, rfl⟩
      | error cause =>
        dsimp only
        split
        · exact ⟨_, rfl⟩
        · exact ⟨_, rfl⟩
    obtain ⟨outcome, houtcome⟩ := hdiscover
    simp only [compileTwice, Pass.followedBy, houtcome]
    cases outcome with
    | error cause => exact ⟨_, rfl⟩
    | ok fields => exact hstrict _

/-- What a client hands in to have a rule indexed. -/
structure Submission where
  text : String
  category : String
  force : Bool
  refresh : RefreshPolicy

namespace Submission

def request (submission : Submission) : IndexRequest :=
  .make submission.text submission.category submission.force submission.refresh

def preview (tools : Toolchain) (submission : Submission) :
    Option (Except IndexError CompiledRule) :=
  (tools.preview submission.text submission.category).outcome

theorem verdict_request (tools : Toolchain) (submission : Submission) :
    tools.verdict submission.request = submission.preview tools :=
  (tools.preview_eq_verdict submission.text submission.category submission.force
    submission.refresh).symm

end Submission

namespace Indexer

/-- An indexer that keeps its field mappings in an index of the store. -/
def keeping : Indexer :=
  { tools := .standard, rulesIndex := "rules", writeTimeout := 30
    keeper := .index "mappings" "ecs" 30 }

/-! ## What a run does besides its write -/

theorem spares_of_isKeeping {keeper : MappingKeeper} {index : String}
    (hkeeper : keeper.index? ≠ some index) {action : Action} (h : IsKeeping keeper action) :
    Spares index action := by
  cases action with
  | store call =>
    intro hindex
    apply hkeeper
    rw [← hindex]
    exact h
  | handOver | notify => trivial
  | storeWithin | askAbandoned | askTime | breakDown => exact h.elim

variable {indexer : Indexer}

theorem only_recordMappings (hkeeper : indexer.keeper.index? ≠ some indexer.rulesIndex)
    (compiled : CompiledRule) (table : Table String) :
    Only (Spares indexer.rulesIndex) (indexer.recordMappings compiled table) := by
  have henter : Only (Spares indexer.rulesIndex) (enter .mappingUpdate) := .perform trivial
  have hask : Only (Spares indexer.rulesIndex) (perform .askAbandoned) := .perform trivial
  refine henter.bind fun _ => hask.bind fun abandoned => ?_
  have hkeep (mappings : List FieldMapping) :
      Only (Spares indexer.rulesIndex) (indexer.keeper.keep mappings) :=
    (only_keep indexer.keeper mappings).mono fun action => spares_of_isKeeping hkeeper
  cases abandoned with
  | true => exact .done _
  | false =>
    refine (hkeep _).bind fun kept => ?_
    cases kept with
    | ok _ => exact .done _
    | error cause => exact .perform trivial

/-! ## The way of a run -/

/-- Whether a program has ended with a value. -/
def Ended {α : Type} (value : α) (_ : Bool) (program : Program α) : Prop :=
  program = .done value

/-- Whether a program is at the write of a rule, whose acknowledgement is what it comes to. -/
structure AtWrite (indexer : Indexer) (compiled : CompiledRule) (known : Bool)
    (program : Program (Except IndexError Acknowledgement)) : Prop where
  exists_index : known = true
  write : ∃ time refresh next, program = .act (.storeWithin indexer.writeTimeout
      (.write indexer.rulesIndex compiled.id (compiled.document time) none indexer.writeTimeout
        refresh)) next ∧
    ∀ acknowledgement, Reaches indexer.rulesIndex (Ended (.ok acknowledgement)) true
      (next (some (.ok acknowledgement)))

theorem reaches_settle (hkeeper : indexer.keeper.index? ≠ some indexer.rulesIndex)
    (compiled : CompiledRule) (table : Table String) (acknowledgement : Acknowledgement) :
    Reaches indexer.rulesIndex (Ended (.ok acknowledgement)) true
      (indexer.settle compiled table acknowledgement) := by
  refine Reaches.of_only (only_recordMappings hkeeper compiled table) fun _ => ?_
  have henter : Only (Spares indexer.rulesIndex) (enter .done) := .perform trivial
  exact Reaches.of_only henter fun _ => .goal rfl

theorem reaches_fail (known : Bool) (cause : IndexError) :
    Reaches indexer.rulesIndex (Ended (.error cause)) known (fail cause) := by
  have hwarn : Only (Spares indexer.rulesIndex) (warn .indexingFailed) := .perform trivial
  exact Reaches.of_only hwarn fun _ => .goal rfl

theorem reaches_persist (hkeeper : indexer.keeper.index? ≠ some indexer.rulesIndex)
    (compiled : CompiledRule) (table : Table String) (refresh : RefreshPolicy) :
    Reaches indexer.rulesIndex (indexer.AtWrite compiled) true
      (indexer.persist compiled refresh >>= fun written => match written with
        | .error cause => fail cause
        | .ok acknowledgement => indexer.settle compiled table acknowledgement) := by
  have henter : Only (Spares indexer.rulesIndex) (enter .persisting) := .perform trivial
  have hask : Only (Spares indexer.rulesIndex) (perform .askTime) := .perform trivial
  simp only [persist, LawfulMonad.bind_assoc]
  refine Reaches.of_only henter fun _ => Reaches.of_only hask fun time => .goal ⟨rfl, ?_⟩
  exact ⟨time, refresh, _, rfl, fun acknowledgement =>
    reaches_settle hkeeper compiled table acknowledgement⟩

/-- A run that has a verdict comes to what follows the passes. -/
theorem reaches_prepare {goal : Bool → Program (Except IndexError Acknowledgement) → Prop}
    {request : IndexRequest} (hvalid : request.validate = .ok ())
    {outcome : Except IndexError (CompiledRule × Table String)}
    (houtcome : (indexer.tools.compileTwice request).outcome = some outcome)
    {following : Except IndexError (CompiledRule × Table String) →
      Program (Except IndexError Acknowledgement)}
    (h : Reaches indexer.rulesIndex goal true (following outcome)) :
    Reaches indexer.rulesIndex goal false (indexer.prepare request >>= following) := by
  have henter : Only (Spares indexer.rulesIndex) (enter .initializing) := .perform trivial
  have hnotices (notices : List Notice) : Only (Spares indexer.rulesIndex) (notifyAll notices) :=
    only_notifyAll fun _ => trivial
  simp only [prepare, hvalid, LawfulMonad.bind_assoc]
  refine Reaches.of_only henter fun _ => Reaches.of_makeReady ?_
  simp only [afterPass, LawfulMonad.bind_assoc, houtcome]
  exact Reaches.of_only (hnotices _) fun _ => h

variable {request : IndexRequest}

/-- A request whose rule compiles comes to the write of the rule. -/
theorem reaches_write (hkeeper : indexer.keeper.index? ≠ some indexer.rulesIndex)
    {compiled : CompiledRule} (h : indexer.tools.verdict request = some (.ok compiled)) :
    Reaches indexer.rulesIndex (indexer.AtWrite compiled) false (indexer.indexRule request) := by
  obtain ⟨hvalid, table, houtcome⟩ := Toolchain.compiled_of_verdict h
  rw [indexRule_eq]
  exact reaches_prepare hvalid houtcome (reaches_persist hkeeper compiled table request.refresh)

/-- A request that is refused comes to its refusal. -/
theorem reaches_refusal {cause : IndexError}
    (h : indexer.tools.verdict request = some (.error cause)) :
    Reaches indexer.rulesIndex (Ended (.error cause)) false (indexer.indexRule request) := by
  rw [indexRule_eq]
  obtain ⟨fault, hinvalid, rfl⟩ | ⟨hvalid, houtcome⟩ := Toolchain.refused_of_verdict h
  · simp only [prepare, hinvalid]
    exact reaches_fail false _
  · exact reaches_prepare hvalid houtcome (reaches_fail true cause)

end Indexer

end SigmaCatalog
