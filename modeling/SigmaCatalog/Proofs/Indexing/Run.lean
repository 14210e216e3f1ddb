import Mathlib.Data.List.Infix
import SigmaCatalog.Indexing.Run
import SigmaCatalog.Proofs.Store.Keeping

/-!
# The course of an indexing run

A run is followed from one exchange to the next.  It prepares the write of the rule, it writes, and
it settles what remains once the write is acknowledged; a failure before that leaves only a warning.
Nothing is assumed of what answers, so the order of the exchanges is the same whatever the store,
the keeper of field mappings, the compiler and the caller do.
-/

namespace SigmaCatalog

open Program

/-! ## Reading exchanges -/

/-- Whether a call is to create, replace or delete a document. -/
def Call.changesDocument : Call → Bool
  | write .. => true
  | delete .. => true
  | _ => false

def Notice.stage? : Notice → Option Stage
  | entered stage => some stage
  | _ => none

namespace Program.Exchange

/-- Whether an exchange asks the store to change a document. -/
def changesDocument (exchange : Exchange) : Bool :=
  exchange.call?.any Call.changesDocument

/-- The acknowledgement of a write, if it came within the time limit. -/
def acknowledgement? : Exchange → Option Acknowledgement
  | ⟨.storeWithin _ (.write ..), some (some (.ok acknowledgement))⟩ => some acknowledgement
  | _ => none

theorem stage?_notify (notice : Notice) (answer : Option Unit) :
    stage? ⟨.notify notice, answer⟩ = notice.stage? := by
  cases notice with
  | entered | warning | compiling => rfl

theorem stages_entered (stage : Stage) (answer : Option Unit) (exchanges : List Exchange) :
    (⟨.notify (.entered stage), answer⟩ :: exchanges).filterMap stage? =
      stage :: exchanges.filterMap stage? :=
  rfl

theorem stages_given (notices : List Notice) :
    (notices.map given).filterMap stage? = notices.filterMap Notice.stage? := by
  rw [List.filterMap_map]
  congr 1
  funext notice
  exact stage?_notify notice (some ())

end Program.Exchange

/-! ## Kinds of actions -/

/-- What a run may do apart from the write of its rule and the keeping of its mappings. -/
def IsQuiet (index : String) : Action → Prop
  | .store call => call.index = index ∧ call.changesDocument = false
  | .storeWithin _ _ => False
  | .handOver _ => False
  | _ => True

theorem only_notifyAll {kind : Action → Prop} {notices : List Notice}
    (h : ∀ notice, kind (.notify notice)) : Only kind (notifyAll notices) := by
  induction notices with
  | nil => exact .done _
  | cons notice notices ih => exact (Only.perform (h notice)).bind fun _ => ih

theorem isQuiet_of_isReadying {index : String} {action : Action} (h : IsReadying index action) :
    IsQuiet index action := by
  cases action with
  | store call =>
    cases call with
    | indexExists name => exact ⟨h, rfl⟩
    | createIndex name schema => exact ⟨h, rfl⟩
    | write | get | delete => exact h.elim
  | storeWithin | handOver => exact h.elim
  | askAbandoned | notify | askTime | breakDown => trivial

section Kinds

variable {exchange : Exchange}

theorem stage?_of_isKeeping {keeper : MappingKeeper} (h : IsKeeping keeper exchange.action) :
    exchange.stage? = none := by
  obtain ⟨action, answer⟩ := exchange
  cases action with
  | notify notice =>
    cases notice with
    | warning => rfl
    | entered | compiling => exact h.elim
  | store | storeWithin | handOver | askAbandoned | askTime | breakDown => rfl

theorem stage?_of_isReadying {index : String} (h : IsReadying index exchange.action) :
    exchange.stage? = none :=
  stage?_of_isKeeping (@isKeeping_of_isReadying index "" 0 _ h)

theorem call_of_isQuiet {index : String} (h : IsQuiet index exchange.action) {call : Call}
    (hcall : exchange.call? = some call) : call.index = index ∧ call.changesDocument = false := by
  obtain ⟨action, answer⟩ := exchange
  cases action with
  | store request =>
    obtain rfl := Option.some.inj hcall
    exact h
  | storeWithin | handOver => exact h.elim
  | askAbandoned | notify | askTime | breakDown => cases hcall

theorem changesDocument_of_isQuiet {index : String} (h : IsQuiet index exchange.action) :
    exchange.changesDocument = false := by
  rw [Exchange.changesDocument]
  cases hcall : exchange.call? with
  | none => rfl
  | some call => exact (call_of_isQuiet h hcall).2

theorem acknowledgement?_of_isQuiet {index : String} (h : IsQuiet index exchange.action) :
    exchange.acknowledgement? = none := by
  obtain ⟨action, answer⟩ := exchange
  cases action with
  | storeWithin => exact h.elim
  | store | handOver | askAbandoned | notify | askTime | breakDown => rfl

end Kinds

/-! ## The parts of a run -/

namespace Indexer

/-- What comes before the write of a rule: its index is made ready, and both passes compile it. -/
def prepare (indexer : Indexer) (request : IndexRequest) :
    Program (Except IndexError (CompiledRule × Table String)) := do
  match request.validate with
  | .error fault => return .error (.invalidRequest fault)
  | .ok () =>
    enter .initializing
    match ← makeReady indexer.rulesIndex IndexSchema.rules with
    | .error cause => return .error (.notReady cause)
    | .ok () => afterPass (indexer.tools.compileTwice request)

/-- What comes after the write of a rule that was acknowledged. -/
def settle (indexer : Indexer) (compiled : CompiledRule) (table : Table String)
    (acknowledgement : Acknowledgement) : Program (Except IndexError Acknowledgement) := do
  indexer.recordMappings compiled table
  enter .done
  return .ok acknowledgement

/-- What comes after a failure. -/
def fail (cause : IndexError) : Program (Except IndexError Acknowledgement) := do
  Program.warn .indexingFailed
  return .error cause

theorem indexRule_eq (indexer : Indexer) (request : IndexRequest) :
    indexer.indexRule request = (do
      match ← indexer.prepare request with
      | .error cause => fail cause
      | .ok (compiled, table) =>
        match ← indexer.persist compiled request.refresh with
        | .error cause => fail cause
        | .ok acknowledgement => indexer.settle compiled table acknowledgement) := by
  unfold indexRule execute prepare
  cases request.validate with
  | error fault => rfl
  | ok _ =>
    simp only [LawfulMonad.bind_assoc]
    refine bind_congr fun _ => bind_congr fun ready => ?_
    cases ready with
    | error cause => rfl
    | ok _ =>
      simp only [LawfulMonad.bind_assoc]
      refine bind_congr fun compiled => ?_
      cases compiled with
      | error cause => rfl
      | ok compiled =>
        simp only [file, LawfulMonad.bind_assoc]
        refine bind_congr fun written => ?_
        cases written with
        | error cause => rfl
        | ok acknowledgement =>
          simp only [settle, LawfulMonad.bind_assoc]
          rfl

/-- Nothing comes of a run, or a failure. -/
def Fails {α : Type} (result : Option (Except IndexError α)) : Prop :=
  ∀ value, result ≠ some (.ok value)

theorem fails_none {α : Type} : Fails (none : Option (Except IndexError α)) :=
  fun _ h => nomatch h

theorem fails_error {α : Type} (cause : IndexError) :
    Fails (some (.error cause) : Option (Except IndexError α)) :=
  fun _ h => nomatch h

variable {σ : Type} {handler : Handler σ} {before after : σ} {exchanges : List Exchange}

/-! ### Passes -/

theorem notifyAll_cases {notices : List Notice} {result : Option Unit}
    (h : Ran handler (notifyAll notices) before exchanges result after) :
    (result = some () ∧ exchanges = notices.map given) ∨
    (result = none ∧
      exchanges.filterMap Exchange.stage? <+: notices.filterMap Notice.stage?) := by
  induction notices generalizing before exchanges with
  | nil =>
    obtain ⟨rfl, rfl⟩ := h.done_cases
    exact .inl ⟨rfl, rfl⟩
  | cons notice notices ih =>
    obtain ⟨answer, between, rest, -, rfl, hrest⟩ | ⟨-, rfl, rfl⟩ := h.perform_cases
    · obtain ⟨rfl, rfl⟩ | ⟨rfl, hinitial⟩ := ih hrest
      · exact .inl ⟨rfl, rfl⟩
      · refine .inr ⟨rfl, ?_⟩
        rw [List.filterMap_cons, List.filterMap_cons, Exchange.stage?_notify]
        cases notice.stage? with
        | none => exact hinitial
        | some stage => exact List.cons_prefix_cons.mpr ⟨rfl, hinitial⟩
    · refine .inr ⟨rfl, ?_⟩
      rw [List.filterMap_cons, List.filterMap_cons, Exchange.stage?_notify]
      cases notice.stage? with
      | none => exact List.nil_prefix
      | some stage => exact ⟨_, rfl⟩

theorem afterPass_cases {α : Type} {pass : Pass α} {result : Option (Except IndexError α)}
    (h : Ran handler (afterPass pass) before exchanges result after) :
    (∃ outcome, pass.outcome = some outcome ∧ result = some outcome ∧
      exchanges = pass.notices.map given) ∨
    (result = none ∧
      exchanges.filterMap Exchange.stage? <+: pass.notices.filterMap Notice.stage?) := by
  obtain ⟨first, _, between, second, hnotices, hrest, rfl⟩ | ⟨hnotices, rfl⟩ := h.bind_cases
  · obtain ⟨-, rfl⟩ | ⟨habsurd, -⟩ := notifyAll_cases hnotices
    · cases houtcome : pass.outcome with
      | some outcome =>
        rw [houtcome] at hrest
        obtain ⟨rfl, rfl⟩ := hrest.done_cases
        exact .inl ⟨outcome, rfl, rfl, List.append_nil _⟩
      | none =>
        rw [houtcome] at hrest
        obtain ⟨answer, -⟩ | ⟨-, rfl, rfl⟩ := hrest.act_cases
        · exact nomatch answer
        · refine .inr ⟨rfl, ?_⟩
          rw [List.filterMap_append, Exchange.stages_given]
          exact (List.append_nil _).symm ▸ List.prefix_rfl
    · cases habsurd
  · obtain ⟨habsurd, -⟩ | ⟨-, hinitial⟩ := notifyAll_cases hnotices
    · cases habsurd
    · exact .inr ⟨rfl, hinitial⟩

theorem only_afterPass {α : Type} (index : String) (pass : Pass α) :
    Only (IsQuiet index) (afterPass pass) := by
  refine (only_notifyAll fun _ => trivial).bind fun _ => ?_
  cases pass.outcome with
  | some outcome => exact .done _
  | none => exact .act trivial fun answer => nomatch answer

theorem discover_stages (tools : Toolchain) (request : IndexRequest) :
    (tools.discover request).notices.filterMap Notice.stage? = [.discovering] := by
  unfold Toolchain.discover
  split
  · rfl
  · rfl
  · split
    · rfl
    · rfl

theorem compileStrictly_notices (tools : Toolchain) (request : IndexRequest)
    (table : Table String) :
    (tools.compileStrictly request table).notices =
      [.entered .compiling, .compiling table true] := by
  unfold Toolchain.compileStrictly
  split
  · rfl
  · rfl
  · rfl

theorem compileStrictly_ok {tools : Toolchain} {request : IndexRequest}
    {proposed table : Table String} {compiled : CompiledRule}
    (h : (tools.compileStrictly request proposed).outcome = some (.ok (compiled, table))) :
    proposed = table ∧ ∃ artifact, tools.compiler request.text table true = some (.ok artifact) ∧
      compiled = Toolchain.compiledRule request artifact := by
  unfold Toolchain.compileStrictly at h
  split at h
  · cases h
  · next artifact hartifact =>
    cases h
    exact ⟨rfl, artifact, hartifact, rfl⟩
  · cases h

/-- Compiling twice enters two stages; both have been entered when a rule comes of it, which is then
the one of the strict pass. -/
theorem compileTwice_cases (tools : Toolchain) (request : IndexRequest) :
    (tools.compileTwice request).notices.filterMap Notice.stage? <+: [.discovering, .compiling] ∧
    ∀ compiled table, (tools.compileTwice request).outcome = some (.ok (compiled, table)) →
      (tools.compileTwice request).notices.filterMap Notice.stage? = [.discovering, .compiling] ∧
      .compiling table true ∈ (tools.compileTwice request).notices ∧
      ∃ artifact, tools.compiler request.text table true = some (.ok artifact) ∧
        compiled = Toolchain.compiledRule request artifact := by
  unfold Toolchain.compileTwice Pass.followedBy
  have hdiscover := discover_stages tools request
  cases (tools.discover request).outcome with
  | none =>
    refine ⟨?_, fun compiled table h => nomatch h⟩
    rw [hdiscover]
    exact ⟨_, rfl⟩
  | some discovered =>
    cases discovered with
    | error cause =>
      refine ⟨?_, fun compiled table h => nomatch h⟩
      rw [hdiscover]
      exact ⟨_, rfl⟩
    | ok fields =>
      have hstages : ((tools.discover request).notices ++
          (tools.compileStrictly request (tools.resolver fields)).notices).filterMap
            Notice.stage? = [.discovering, .compiling] := by
        rw [List.filterMap_append, hdiscover, compileStrictly_notices]
        rfl
      constructor
      · exact hstages ▸ List.prefix_rfl
      · intro compiled table houtcome
        obtain ⟨rfl, hcompiled⟩ := compileStrictly_ok houtcome
        refine ⟨hstages, List.mem_append_right _ ?_, hcompiled⟩
        rw [compileStrictly_notices]
        exact List.mem_cons_of_mem _ List.mem_cons_self

/-! ### Before the write -/

/-- Exchanges after which a rule may be written: its index has been made ready, and the strict pass
has made the artifact. -/
structure Prepared (indexer : Indexer) (request : IndexRequest) (handler : Handler σ)
    (exchanges : List Exchange) (artifact : Artifact) (table : Table String) : Prop where
  compiled_strictly : indexer.tools.compiler request.text table true = some (.ok artifact)
  reported : .compiling table true ∈ (indexer.tools.compileTwice request).notices
  ready_first : ∃ readying start ended,
    Ran handler (makeReady indexer.rulesIndex IndexSchema.rules) start readying (some (.ok ()))
      ended ∧
    exchanges = given (.entered .initializing) :: readying ++
      (indexer.tools.compileTwice request).notices.map given

variable {indexer : Indexer} {request : IndexRequest}

theorem only_prepare (indexer : Indexer) (request : IndexRequest) :
    Only (IsQuiet indexer.rulesIndex) (indexer.prepare request) := by
  unfold prepare
  cases request.validate with
  | error fault => exact .done _
  | ok _ =>
    have henter : Only (IsQuiet indexer.rulesIndex) (enter .initializing) := .perform trivial
    have hready := (@only_makeReady indexer.rulesIndex IndexSchema.rules).mono
      fun action => isQuiet_of_isReadying
    refine henter.bind fun _ => hready.bind fun ready => ?_
    cases ready with
    | error cause => exact .done _
    | ok _ => exact only_afterPass _ _

theorem stages_of_makeReady {index : String} {schema : Json}
    {result : Option (Except ReadinessError Unit)}
    (h : Ran handler (makeReady index schema) before exchanges result after) :
    exchanges.filterMap Exchange.stage? = [] := by
  refine List.filterMap_eq_nil_iff.mpr fun exchange hmem => ?_
  exact stage?_of_isReadying ((only_makeReady schema).of_ran h exchange hmem)

/-- Either the rule may be written now, or there is no rule. -/
theorem prepare_cases {result : Option (Except IndexError (CompiledRule × Table String))}
    (h : Ran handler (indexer.prepare request) before exchanges result after) :
    (∃ artifact table, result = some (.ok (Toolchain.compiledRule request artifact, table)) ∧
      request.category ≠ "" ∧ Prepared indexer request handler exchanges artifact table ∧
      exchanges.filterMap Exchange.stage? = [.initializing, .discovering, .compiling]) ∨
    (Fails result ∧ (request.category = "" → exchanges = []) ∧
      exchanges.filterMap Exchange.stage? <+: [.initializing, .discovering, .compiling]) := by
  unfold prepare IndexRequest.validate at h
  by_cases hempty : request.category = ""
  · rw [hempty] at h
    obtain ⟨rfl, rfl⟩ := h.done_cases
    exact .inr ⟨fails_error _, fun _ => rfl, List.nil_prefix⟩
  have hvisible : request.category.isEmpty = false := by
    simpa [Bool.eq_false_iff] using hempty
  simp only [hvisible, Bool.false_eq_true, if_false] at h
  have hnotEmpty : request.category = "" → exchanges = [] := fun h => absurd h hempty
  obtain ⟨answer, between, rest, -, rfl, hrest⟩ | ⟨-, rfl, rfl⟩ := h.perform_cases
  · rw [Exchange.stages_entered]
    obtain ⟨readying, ready, middle, passes, hready, hpasses, rfl⟩ | ⟨hready, rfl⟩ :=
      hrest.bind_cases
    · rw [List.filterMap_append, stages_of_makeReady hready, List.nil_append]
      cases ready with
      | error cause =>
        obtain ⟨rfl, rfl⟩ := hpasses.done_cases
        exact .inr ⟨fails_error _, hnotEmpty, _, rfl⟩
      | ok _ =>
        -- A rule can only come of the passes, after an index that is ready.
        obtain ⟨hinitial, hcompiled⟩ := compileTwice_cases indexer.tools request
        obtain ⟨outcome, houtcome, rfl, rfl⟩ | ⟨rfl, hstages⟩ := afterPass_cases hpasses
        · rw [Exchange.stages_given]
          cases outcome with
          | error cause =>
            exact .inr ⟨fails_error _, hnotEmpty, List.cons_prefix_cons.mpr ⟨rfl, hinitial⟩⟩
          | ok prepared =>
            obtain ⟨hstages, hreported, artifact, hartifact, hrule⟩ := hcompiled _ _ houtcome
            refine .inl ⟨artifact, prepared.2, ?_, hempty, ?_, ?_⟩
            · rw [← hrule]
            · exact ⟨hartifact, hreported, readying, between, middle, hready, rfl⟩
            · rw [hstages]
        · refine .inr ⟨fails_none, hnotEmpty, List.cons_prefix_cons.mpr ⟨rfl, ?_⟩⟩
          exact hstages.trans hinitial
    · rw [stages_of_makeReady hready]
      exact .inr ⟨fails_none, hnotEmpty, _, rfl⟩
  · exact .inr ⟨fails_none, hnotEmpty, _, rfl⟩

/-! ### The write -/

/-- The write of a rule that the strict pass returned. -/
def ruleWrite (indexer : Indexer) (request : IndexRequest) (artifact : Artifact) (time : String) :
    Call :=
  .write indexer.rulesIndex artifact.rule.id.text
    ((Toolchain.compiledRule request artifact).document time) none indexer.writeTimeout
    request.refresh

/-- Either the write is not reached, or its acknowledgement is the value. -/
theorem persist_cases {artifact : Artifact} {result : Option (Except IndexError Acknowledgement)}
    (h : Ran handler (indexer.persist (Toolchain.compiledRule request artifact) request.refresh)
      before exchanges result after) :
    (result = none ∧ (∀ exchange ∈ exchanges, IsQuiet indexer.rulesIndex exchange.action) ∧
      exchanges.filterMap Exchange.stage? = [.persisting]) ∨
    ∃ time write, write.action =
        .storeWithin indexer.writeTimeout (indexer.ruleWrite request artifact time) ∧
      exchanges = [given (.entered .persisting), ⟨.askTime, some time⟩, write] ∧
      ((∃ acknowledgement, write.acknowledgement? = some acknowledgement ∧
        result = some (.ok acknowledgement)) ∨
      (write.acknowledgement? = none ∧ Fails result)) := by
  obtain ⟨answer, between, rest, -, rfl, htime⟩ | ⟨-, rfl, rfl⟩ := h.perform_cases
  · obtain ⟨time, middle, rest, -, rfl, hwrite⟩ | ⟨-, rfl, rfl⟩ := htime.perform_cases
    · obtain ⟨reply, last, rest, -, rfl, hend⟩ | ⟨-, rfl, rfl⟩ := hwrite.perform_cases
      · cases reply with
        | none =>
          obtain ⟨rfl, rfl⟩ := hend.done_cases
          exact .inr ⟨time, _, rfl, rfl, .inr ⟨rfl, fails_error _⟩⟩
        | some reply =>
          cases reply with
          | error cause =>
            obtain ⟨rfl, rfl⟩ := hend.done_cases
            exact .inr ⟨time, _, rfl, rfl, .inr ⟨rfl, fails_error _⟩⟩
          | ok acknowledgement =>
            obtain ⟨rfl, rfl⟩ := hend.done_cases
            exact .inr ⟨time, _, rfl, rfl, .inl ⟨acknowledgement, rfl, rfl⟩⟩
      · exact .inr ⟨time, _, rfl, rfl, .inr ⟨rfl, fails_none⟩⟩
    · refine .inl ⟨rfl, ?_, rfl⟩
      simp [IsQuiet]
  · refine .inl ⟨rfl, ?_, rfl⟩
    simp [IsQuiet]

/-! ### After the write -/

theorem stages_of_keep {keeper : MappingKeeper} {mappings : List FieldMapping}
    {result : Option (Except MappingError Unit)}
    (h : Ran handler (keeper.keep mappings) before exchanges result after) :
    exchanges.filterMap Exchange.stage? = [] := by
  refine List.filterMap_eq_nil_iff.mpr fun exchange hmem => ?_
  exact stage?_of_isKeeping ((only_keep keeper mappings).of_ran h exchange hmem)

/-- Exchanges in which the mappings of a rule are kept once: the stage is entered, somebody waits
for the outcome, the keeper is called, and nothing but notices follows. -/
structure KeepsOnce (indexer : Indexer) (compiled : CompiledRule) (table : Table String)
    (handler : Handler σ) (asked kept closing : List Exchange) : Prop where
  awaited : asked = [given (.entered .mappingUpdate), ⟨.askAbandoned, some false⟩]
  keeper_ran : ∃ start result ended, Ran handler (indexer.keeper.keep (FieldMapping.ofFields
    compiled.category indexer.keeper.schema table compiled.fields)) start kept result ended
  notices : ∀ exchange ∈ closing, ∃ notice, exchange.action = .notify notice

variable {compiled : CompiledRule} {table : Table String}

theorem recordMappings_cases {result : Option Unit}
    (h : Ran handler (indexer.recordMappings compiled table) before exchanges result after) :
    exchanges.filterMap Exchange.stage? = [.mappingUpdate] ∧
    ((∀ exchange ∈ exchanges, IsQuiet indexer.rulesIndex exchange.action) ∨
      ∃ asked kept closing, exchanges = asked ++ kept ++ closing ∧
        KeepsOnce indexer compiled table handler asked kept closing) := by
  obtain ⟨_, between, rest, -, rfl, hask⟩ | ⟨-, rfl, rfl⟩ := h.perform_cases
  · obtain ⟨abandoned, middle, rest, -, rfl, hrest⟩ | ⟨-, rfl, rfl⟩ := hask.perform_cases
    · cases abandoned with
      | true =>
        obtain ⟨rfl, rfl⟩ := hrest.done_cases
        exact ⟨rfl, .inl (by simp [IsQuiet])⟩
      | false =>
        simp only [Bool.false_eq_true, if_false] at hrest
        obtain ⟨kept, value, last, closing, hkeep, hclosing, rfl⟩ | ⟨hkeep, rfl⟩ := hrest.bind_cases
        · have hwarning : ∀ exchange ∈ closing, exchange.stage? = none ∧
              ∃ notice, exchange.action = .notify notice := by
            cases value with
            | error cause =>
              obtain ⟨answer, rfl⟩ := Ran.exchanges_of_perform hclosing
              exact List.forall_mem_singleton.mpr ⟨rfl, _, rfl⟩
            | ok _ =>
              obtain ⟨rfl, -⟩ := hclosing.done_cases
              exact List.forall_mem_nil _
          have hstages := List.filterMap_eq_nil_iff.mpr fun exchange hmem =>
            (hwarning exchange hmem).1
          refine ⟨?_, .inr ⟨_, kept, closing, rfl, rfl, ⟨middle, _, last, hkeep⟩,
            fun exchange hmem => (hwarning exchange hmem).2⟩⟩
          change .mappingUpdate :: (kept ++ closing).filterMap Exchange.stage? = _
          rw [List.filterMap_append, stages_of_keep hkeep, hstages]
          rfl
        · -- The keeper never came back.
          refine ⟨?_, .inr ⟨_, rest, [], (List.append_nil _).symm, rfl,
            ⟨middle, _, after, hkeep⟩, List.forall_mem_nil _⟩⟩
          change .mappingUpdate :: rest.filterMap Exchange.stage? = _
          rw [stages_of_keep hkeep]
    · exact ⟨rfl, .inl (by simp [IsQuiet])⟩
  · exact ⟨rfl, .inl (by simp [IsQuiet])⟩

/-- Once the write is acknowledged, the acknowledgement is the value of a run that ends. -/
theorem settle_cases {acknowledgement : Acknowledgement}
    {result : Option (Except IndexError Acknowledgement)}
    (h : Ran handler (indexer.settle compiled table acknowledgement) before exchanges result after) :
    ((result = none ∧ exchanges.filterMap Exchange.stage? <+: [.mappingUpdate, .done]) ∨
      (result = some (.ok acknowledgement) ∧
        exchanges.filterMap Exchange.stage? = [.mappingUpdate, .done])) ∧
    ((∀ exchange ∈ exchanges, IsQuiet indexer.rulesIndex exchange.action) ∨
      ∃ asked kept closing, exchanges = asked ++ kept ++ closing ∧
        KeepsOnce indexer compiled table handler asked kept closing) := by
  obtain ⟨recorded, _, between, last, hrecord, hlast, rfl⟩ | ⟨hrecord, rfl⟩ := h.bind_cases
  · obtain ⟨hstages, hparts⟩ := recordMappings_cases hrecord
    have hdone : ∃ answer, last = [⟨.notify (.entered .done), answer⟩] ∧
        (result = none ∨ result = some (.ok acknowledgement)) := by
      obtain ⟨answer, ended, rest, -, rfl, hend⟩ | ⟨-, rfl, rfl⟩ := hlast.perform_cases
      · obtain ⟨rfl, rfl⟩ := hend.done_cases
        exact ⟨_, rfl, .inr rfl⟩
      · exact ⟨_, rfl, .inl rfl⟩
    obtain ⟨answer, rfl, hresult⟩ := hdone
    have hstages : (recorded ++ [(⟨.notify (.entered .done), answer⟩ : Exchange)]).filterMap
        Exchange.stage? = [.mappingUpdate, .done] := by
      rw [List.filterMap_append, hstages]
      rfl
    constructor
    · obtain rfl | rfl := hresult
      · exact .inl ⟨rfl, hstages ▸ List.prefix_rfl⟩
      · exact .inr ⟨rfl, hstages⟩
    · obtain hquiet | ⟨asked, kept, closing, rfl, hkeeps⟩ := hparts
      · exact .inl (List.forall_mem_append.mpr ⟨hquiet, List.forall_mem_singleton.mpr trivial⟩)
      · refine .inr ⟨asked, kept, _, List.append_assoc _ _ _, hkeeps.awaited, hkeeps.keeper_ran, ?_⟩
        exact List.forall_mem_append.mpr ⟨hkeeps.notices, by simp⟩
  · obtain ⟨hstages, hparts⟩ := recordMappings_cases hrecord
    exact ⟨.inl ⟨rfl, hstages ▸ ⟨_, rfl⟩⟩, hparts⟩

/-! ## The course of a run -/

/-- The write of a rule with the exchanges before it: everything has been prepared, the next stage
has been entered, and the time has been asked for. -/
structure Writes (indexer : Indexer) (request : IndexRequest) (handler : Handler σ)
    (before : List Exchange) (write : Exchange) (artifact : Artifact) (table : Table String) :
    Prop where
  prepared_first : ∃ exchanges time, Prepared indexer request handler exchanges artifact table ∧
    before = exchanges ++ [given (.entered .persisting), ⟨.askTime, some time⟩] ∧
    write.action = .storeWithin indexer.writeTimeout (indexer.ruleWrite request artifact time)
  has_category : request.category ≠ ""
  quiet : ∀ exchange ∈ before, IsQuiet indexer.rulesIndex exchange.action
  stages : before.filterMap Exchange.stage? = [.initializing, .discovering, .compiling, .persisting]

/-- How far a run comes: its exchanges and its value. -/
inductive Course (indexer : Indexer) (request : IndexRequest) (handler : Handler σ) :
    List Exchange → Option (Except IndexError Acknowledgement) → Prop
  | unwritten {exchanges result}
    (hquiet : ∀ exchange ∈ exchanges, IsQuiet indexer.rulesIndex exchange.action)
    (hempty : request.category = "" → exchanges.filterMap Exchange.call? = [])
    (hstages : exchanges.filterMap Exchange.stage? <+:
      [.initializing, .discovering, .compiling, .persisting])
    (hfails : Fails result) : Course indexer request handler exchanges result
  | unacknowledged {before write after artifact table result}
    (hwrites : Writes indexer request handler before write artifact table)
    (hnone : write.acknowledgement? = none)
    (hafter : ∀ exchange ∈ after, ∃ warning, exchange.action = .notify (.warning warning))
    (hfails : Fails result) : Course indexer request handler (before ++ write :: after) result
  | stored {before write after artifact table acknowledgement start result ended}
    (hwrites : Writes indexer request handler before write artifact table)
    (hack : write.acknowledgement? = some acknowledgement)
    (hsettled : Ran handler (indexer.settle (Toolchain.compiledRule request artifact) table
      acknowledgement) start after result ended) :
    Course indexer request handler (before ++ write :: after) result

theorem fail_cases {cause : IndexError} {result : Option (Except IndexError Acknowledgement)}
    (h : Ran handler (fail cause) before exchanges result after) :
    Fails result ∧ ∃ answer, exchanges = [⟨.notify (.warning .indexingFailed), answer⟩] := by
  obtain ⟨answer, ended, rest, -, rfl, hend⟩ | ⟨-, rfl, rfl⟩ := h.perform_cases
  · obtain ⟨rfl, rfl⟩ := hend.done_cases
    exact ⟨fails_error cause, _, rfl⟩
  · exact ⟨fails_none, _, rfl⟩

theorem writes_of_prepared {artifact : Artifact} {time : String} {write : Exchange}
    (hprepared : Prepared indexer request handler exchanges artifact table)
    (hcategory : request.category ≠ "")
    (hquiet : ∀ exchange ∈ exchanges, IsQuiet indexer.rulesIndex exchange.action)
    (hstages : exchanges.filterMap Exchange.stage? = [.initializing, .discovering, .compiling])
    (hwrite : write.action =
      .storeWithin indexer.writeTimeout (indexer.ruleWrite request artifact time)) :
    Writes indexer request handler
      (exchanges ++ [given (.entered .persisting), ⟨.askTime, some time⟩]) write artifact
      table where
  prepared_first := ⟨exchanges, time, hprepared, rfl, hwrite⟩
  has_category := hcategory
  quiet := List.forall_mem_append.mpr ⟨hquiet, by simp [given, IsQuiet]⟩
  stages := by
    rw [List.filterMap_append, hstages]
    rfl

/-- A run that has been prepared goes on with the write. -/
theorem course_of_prepared {artifact : Artifact} {prepared written : List Exchange}
    {result : Option (Except IndexError Acknowledgement)}
    (hprepared : Prepared indexer request handler prepared artifact table)
    (hcategory : request.category ≠ "")
    (hquiet : ∀ exchange ∈ prepared, IsQuiet indexer.rulesIndex exchange.action)
    (hstages : prepared.filterMap Exchange.stage? = [.initializing, .discovering, .compiling])
    (h : Ran handler (indexer.persist (Toolchain.compiledRule request artifact) request.refresh >>=
      fun outcome => match outcome with
        | .error cause => fail cause
        | .ok acknowledgement =>
          indexer.settle (Toolchain.compiledRule request artifact) table acknowledgement)
      before written result after) :
    Course indexer request handler (prepared ++ written) result := by
  obtain ⟨first, outcome, between, rest, hpersist, hrest, rfl⟩ | ⟨hpersist, rfl⟩ := h.bind_cases
  · obtain ⟨habsurd, -⟩ | ⟨time, write, hwrite, rfl, houtcome⟩ := persist_cases hpersist
    · cases habsurd
    · have hwrites := writes_of_prepared hprepared hcategory hquiet hstages hwrite
      have hsplit : prepared ++
          ([given (.entered .persisting), ⟨.askTime, some time⟩, write] ++ rest) =
          (prepared ++ [given (.entered .persisting), ⟨.askTime, some time⟩]) ++ write :: rest := by
        simp
      rw [hsplit]
      obtain ⟨acknowledgement, hack, hvalue⟩ | ⟨hnone, hfails⟩ := houtcome
      · obtain rfl := Option.some.inj hvalue
        exact .stored hwrites hack hrest
      · cases outcome with
        | ok acknowledgement => exact absurd rfl (hfails acknowledgement)
        | error cause =>
          obtain ⟨hresult, answer, rfl⟩ := fail_cases hrest
          exact .unacknowledged hwrites hnone (by simp) hresult
  · -- Without a value the run ends here, before the write or with one that is never answered.
    obtain ⟨-, hquiet', hstages'⟩ | ⟨time, write, hwrite, rfl, houtcome⟩ := persist_cases hpersist
    · refine .unwritten (List.forall_mem_append.mpr ⟨hquiet, hquiet'⟩)
        (fun hempty => absurd hempty hcategory) ?_ fails_none
      rw [List.filterMap_append, hstages, hstages']
      exact List.prefix_rfl
    · have hwrites := writes_of_prepared hprepared hcategory hquiet hstages hwrite
      have hsplit : prepared ++ [given (.entered .persisting), ⟨.askTime, some time⟩, write] =
          (prepared ++ [given (.entered .persisting), ⟨.askTime, some time⟩]) ++ [write] := by
        simp
      rw [hsplit]
      obtain ⟨acknowledgement, -, habsurd⟩ | ⟨hnone, -⟩ := houtcome
      · cases habsurd
      · exact .unacknowledged hwrites hnone (List.forall_mem_nil _) fails_none

theorem course_of_ran {result : Option (Except IndexError Acknowledgement)}
    (h : Ran handler (indexer.indexRule request) before exchanges result after) :
    Course indexer request handler exchanges result := by
  rw [indexRule_eq] at h
  obtain ⟨first, prepared, between, rest, hprepare, hrest, rfl⟩ | ⟨hprepare, rfl⟩ := h.bind_cases
  · have hquiet := (only_prepare indexer request).of_ran hprepare
    obtain ⟨artifact, table, hvalue, hcategory, hprepared, hstages⟩ | ⟨hfails, hempty, hstages⟩ :=
      prepare_cases hprepare
    · obtain rfl := Option.some.inj hvalue
      exact course_of_prepared hprepared hcategory hquiet hstages hrest
    · cases prepared with
      | ok prepared => exact absurd rfl (hfails prepared)
      | error cause =>
        obtain ⟨hresult, answer, rfl⟩ := fail_cases hrest
        refine .unwritten (List.forall_mem_append.mpr ⟨hquiet, by simp [IsQuiet]⟩) ?_ ?_ hresult
        · intro hcategory
          rw [hempty hcategory]
          rfl
        · have hlast : ([⟨.notify (.warning .indexingFailed), answer⟩] : List Exchange).filterMap
              Exchange.stage? = [] := rfl
          rw [List.filterMap_append, hlast, List.append_nil]
          exact hstages.trans ⟨[.persisting], rfl⟩
  · have hquiet := (only_prepare indexer request).of_ran hprepare
    obtain ⟨artifact, table, habsurd, -⟩ | ⟨-, hempty, hstages⟩ := prepare_cases hprepare
    · cases habsurd
    · refine .unwritten hquiet ?_ (hstages.trans ⟨[.persisting], rfl⟩) fails_none
      intro hcategory
      rw [hempty hcategory]
      rfl

end Indexer

end SigmaCatalog
