import Mathlib.Data.List.Infix
import SigmaCatalog.Proofs.Indexing.Run
import SigmaCatalog.Store.Memory.Handler

/-!
# The order of an indexing run

Whatever answers, a run enters its stages in their order and writes at most one document, the one of
its rule, when everything before the write has been done.  The acknowledgement of that write decides
the outcome: with it the mappings may be kept, and only their keeper knows how that ends; without it
there is a failure and the keeper is never called.
-/

namespace SigmaCatalog

open Program

/-- The stages in the order in which a run enters them. -/
def Stage.order : List Stage :=
  [.initializing, .discovering, .compiling, .persisting, .mappingUpdate, .done]

/-- Whether an exchange asks the store to change a document of an index. -/
def Program.Exchange.changesDocumentIn (index : String) (exchange : Exchange) : Bool :=
  exchange.call?.any fun call => call.changesDocument && call.index == index

theorem Memory.returns_handler (time : String) : Returns (Memory.handler time) := by
  intro action memory hnot
  cases action with
  | breakDown => exact absurd rfl hnot
  | store | storeWithin | handOver | askAbandoned | notify | askTime => rfl

namespace Indexer

variable {σ : Type} {handler : Handler σ} {exchanges : List Exchange} {indexer : Indexer}
  {request : IndexRequest} {table : Table String} {artifact : Artifact}

/-! ## What a run does by itself -/

/-- Exchanges on the index of rules alone that change at most one document: the one of the rule,
which is written once everything before it has been done. -/
structure WritesOnce (indexer : Indexer) (request : IndexRequest) (handler : Handler σ)
    (own : List Exchange) : Prop where
  calls : ∀ exchange ∈ own, ∀ call, exchange.call? = some call → call.index = indexer.rulesIndex
  hands_nothing_over : ∀ exchange ∈ own, ∀ mappings, exchange.action ≠ .handOver mappings
  changes_once : own.countP Exchange.changesDocument ≤ 1
  changes_prepared : ∀ before change rest, own = before ++ change :: rest →
    change.changesDocument = true →
    ∃ artifact table, Writes indexer request handler before change artifact table

section Quiet

variable (hquiet : ∀ exchange ∈ exchanges, IsQuiet indexer.rulesIndex exchange.action)
include hquiet

theorem changesDocument_of_quiet :
    ∀ exchange ∈ exchanges, ¬ exchange.changesDocument = true := by
  intro exchange hmem hchange
  rw [changesDocument_of_isQuiet (hquiet exchange hmem)] at hchange
  cases hchange

theorem hands_nothing_over_of_quiet :
    ∀ exchange ∈ exchanges, ∀ mappings, exchange.action ≠ .handOver mappings := by
  intro exchange hmem mappings haction
  have hkind := hquiet exchange hmem
  rw [haction] at hkind
  exact hkind

theorem not_acknowledged_of_quiet : ∀ exchange ∈ exchanges, exchange.acknowledgement? = none :=
  fun exchange hmem => acknowledgement?_of_isQuiet (hquiet exchange hmem)

theorem writesOnce_of_quiet : WritesOnce indexer request handler exchanges where
  calls exchange hmem _ hcall := (call_of_isQuiet (hquiet exchange hmem) hcall).1
  hands_nothing_over := hands_nothing_over_of_quiet hquiet
  changes_once := by
    rw [List.countP_eq_zero.mpr (changesDocument_of_quiet hquiet)]
    exact Nat.zero_le 1
  changes_prepared before change rest hsplit hchange :=
    absurd hchange (changesDocument_of_quiet hquiet change (by simp [hsplit]))

end Quiet

/-- The one element of a list that passes a test has a definite place. -/
theorem split_unique {α : Type} {test : α → Bool} {first second before rest : List α} {x y : α}
    (hfirst : ∀ z ∈ first, ¬ test z = true) (hsecond : ∀ z ∈ second, ¬ test z = true)
    (h : first ++ x :: second = before ++ y :: rest) (hy : test y = true) :
    first = before ∧ x = y := by
  induction first generalizing before with
  | nil =>
    cases before with
    | nil => exact ⟨rfl, (List.cons.inj h).1⟩
    | cons z before =>
      have hmem : y ∈ second := by simp [(List.cons.inj h).2]
      exact absurd hy (hsecond y hmem)
  | cons z first ih =>
    cases before with
    | nil =>
      obtain rfl := (List.cons.inj h).1
      exact absurd hy (hfirst z List.mem_cons_self)
    | cons z' before =>
      obtain ⟨rfl, hrest⟩ := List.cons.inj h
      obtain ⟨rfl, rfl⟩ := ih (fun z hmem => hfirst z (List.mem_cons_of_mem _ hmem)) hrest
      exact ⟨rfl, rfl⟩

section Write

variable {write : Exchange} {written asked : List Exchange}

theorem action_of_writes (hwrites : Writes indexer request handler written write artifact table) :
    ∃ time, write.action =
      .storeWithin indexer.writeTimeout (indexer.ruleWrite request artifact time) := by
  obtain ⟨-, time, -, -, haction⟩ := hwrites.prepared_first
  exact ⟨time, haction⟩

theorem call_of_writes (hwrites : Writes indexer request handler written write artifact table) :
    ∃ time, write.call? = some (indexer.ruleWrite request artifact time) := by
  obtain ⟨time, haction⟩ := action_of_writes hwrites
  obtain ⟨action, answer⟩ := write
  subst haction
  exact ⟨time, rfl⟩

theorem writesOnce_of_writes
    (hwrites : Writes indexer request handler written write artifact table)
    (hasked : ∀ exchange ∈ asked, IsQuiet indexer.rulesIndex exchange.action) :
    WritesOnce indexer request handler (written ++ write :: asked) := by
  have hbefore : WritesOnce indexer request handler written := writesOnce_of_quiet hwrites.quiet
  have hafter : WritesOnce indexer request handler asked := writesOnce_of_quiet hasked
  obtain ⟨time, haction⟩ := action_of_writes hwrites
  obtain ⟨time', hcall⟩ := call_of_writes hwrites
  constructor
  · refine List.forall_mem_append.mpr ⟨hbefore.calls, List.forall_mem_cons.mpr ⟨?_, hafter.calls⟩⟩
    intro call hcall'
    obtain rfl := Option.some.inj (hcall.symm.trans hcall')
    rfl
  · refine List.forall_mem_append.mpr ⟨hbefore.hands_nothing_over,
      List.forall_mem_cons.mpr ⟨?_, hafter.hands_nothing_over⟩⟩
    intro mappings habsurd
    rw [haction] at habsurd
    cases habsurd
  · rw [List.countP_append, List.countP_cons,
      List.countP_eq_zero.mpr (changesDocument_of_quiet hwrites.quiet),
      List.countP_eq_zero.mpr (changesDocument_of_quiet hasked)]
    split
    · exact Nat.le_refl 1
    · exact Nat.zero_le 1
  · intro before change rest hsplit hchange
    obtain ⟨rfl, rfl⟩ := split_unique (changesDocument_of_quiet hwrites.quiet)
      (changesDocument_of_quiet hasked) hsplit hchange
    exact ⟨artifact, table, hwrites⟩

end Write

/-! ## The order of a run -/

/-- What the exchanges of a run and its outcome have to do with each other.  The exchanges are those
of the run itself, then those of the keeper of field mappings, and then notices. -/
structure Orderly (indexer : Indexer) (request : IndexRequest) (handler : Handler σ)
    (exchanges : List Exchange) (outcome : Except IndexError Acknowledgement)
    (own kept closing : List Exchange) : Prop where
  parts : exchanges = own ++ kept ++ closing
  stages_in_order : exchanges.filterMap Exchange.stage? <+: Stage.order
  done_iff : Returns handler →
    (.done ∈ exchanges.filterMap Exchange.stage? ↔
      ∃ acknowledgement, outcome = .ok acknowledgement)
  no_category : request.category = "" → exchanges.filterMap Exchange.call? = []
  writes_once : WritesOnce indexer request handler own
  /-- Not even the keeper changes a document of the index of rules, unless that is its index. -/
  changes_rules_once : indexer.keeper.index? ≠ some indexer.rulesIndex →
    exchanges.countP (Exchange.changesDocumentIn indexer.rulesIndex) ≤ 1
  /-- The mappings are kept right after the write was acknowledged, or not at all. -/
  kept_after_write : kept = [] ∨
    ∃ before write asked artifact table acknowledgement, own = before ++ write :: asked ∧
      Writes indexer request handler before write artifact table ∧
      write.acknowledgement? = some acknowledgement ∧
      KeepsOnce indexer (Toolchain.compiledRule request artifact) table handler asked kept closing
  closing_notices : ∀ exchange ∈ closing, ∃ notice, exchange.action = .notify notice
  acknowledged : Returns handler → ∀ exchange ∈ own, ∀ acknowledgement,
    exchange.acknowledgement? = some acknowledgement → outcome = .ok acknowledgement
  otherwise : (∀ exchange ∈ own, exchange.acknowledgement? = none) →
    kept = [] ∧ ∃ cause, outcome = .error cause

theorem outcomeOf_of_fails {result : Option (Except IndexError Acknowledgement)}
    (h : Fails result) : ∃ cause, outcomeOf result = .error cause := by
  cases result with
  | none => exact ⟨.cancelled, rfl⟩
  | some outcome =>
    cases outcome with
    | error cause => exact ⟨cause, rfl⟩
    | ok acknowledgement => exact absurd rfl (h acknowledgement)

theorem changesDocument_of_changesDocumentIn {index : String} {exchange : Exchange}
    (h : exchange.changesDocumentIn index = true) : exchange.changesDocument = true := by
  unfold Exchange.changesDocumentIn at h
  unfold Exchange.changesDocument
  cases hcall : exchange.call? with
  | none =>
    rw [hcall] at h
    cases h
  | some call =>
    rw [hcall, Option.any_some, Bool.and_eq_true] at h
    exact h.1

theorem not_changesDocumentIn_of_isKeeping {keeper : MappingKeeper} {index : String}
    {exchange : Exchange} (hother : keeper.index? ≠ some index)
    (h : IsKeeping keeper exchange.action) : ¬ exchange.changesDocumentIn index = true := by
  obtain ⟨action, answer⟩ := exchange
  cases action with
  | store call =>
    intro hchange
    have hboth : (call.changesDocument && call.index == index) = true := hchange
    rw [Bool.and_eq_true, beq_iff_eq] at hboth
    exact hother (hboth.2 ▸ h)
  | storeWithin => exact h.elim
  | handOver | notify | askAbandoned | askTime | breakDown => exact Bool.false_ne_true

theorem countP_changesDocumentIn_le_one {own kept closing : List Exchange}
    (hother : indexer.keeper.index? ≠ some indexer.rulesIndex)
    (hown : WritesOnce indexer request handler own)
    (hkept : ∀ exchange ∈ kept, IsKeeping indexer.keeper exchange.action)
    (hclosing : ∀ exchange ∈ closing, ∃ notice, exchange.action = .notify notice) :
    (own ++ kept ++ closing).countP (Exchange.changesDocumentIn indexer.rulesIndex) ≤ 1 := by
  have hkeeper : kept.countP (Exchange.changesDocumentIn indexer.rulesIndex) = 0 :=
    List.countP_eq_zero.mpr fun exchange hmem =>
      not_changesDocumentIn_of_isKeeping hother (hkept exchange hmem)
  have hnotices : closing.countP (Exchange.changesDocumentIn indexer.rulesIndex) = 0 := by
    refine List.countP_eq_zero.mpr fun exchange hmem => ?_
    obtain ⟨notice, haction⟩ := hclosing exchange hmem
    obtain ⟨action, answer⟩ := exchange
    subst haction
    exact Bool.false_ne_true
  rw [List.countP_append, List.countP_append, hkeeper, hnotices]
  exact (List.countP_mono_left fun exchange _ => changesDocument_of_changesDocumentIn).trans
    hown.changes_once

/-- A run whose write is not acknowledged fails, and all of it is its own doing. -/
theorem orderly_of_fails {result : Option (Except IndexError Acknowledgement)}
    (hwrites : WritesOnce indexer request handler exchanges)
    (hnone : ∀ exchange ∈ exchanges, exchange.acknowledgement? = none)
    (hempty : request.category = "" → exchanges.filterMap Exchange.call? = [])
    (hstages : exchanges.filterMap Exchange.stage? <+:
      [.initializing, .discovering, .compiling, .persisting])
    (hfails : Fails result) :
    Orderly indexer request handler exchanges (outcomeOf result) exchanges [] [] := by
  obtain ⟨cause, hcause⟩ := outcomeOf_of_fails hfails
  have hparts : exchanges = exchanges ++ [] ++ [] := by simp
  rw [hcause]
  constructor
  case parts => exact hparts
  case stages_in_order => exact hstages.trans ⟨[.mappingUpdate, .done], rfl⟩
  case done_iff =>
    intro _
    constructor
    · intro hdone
      have habsurd := hstages.subset hdone
      simp at habsurd
    · rintro ⟨acknowledgement, habsurd⟩
      cases habsurd
  case no_category => exact hempty
  case writes_once => exact hwrites
  case changes_rules_once =>
    intro hother
    rw [hparts]
    exact countP_changesDocumentIn_le_one hother hwrites (List.forall_mem_nil _)
      (List.forall_mem_nil _)
  case kept_after_write => exact .inl rfl
  case closing_notices => exact List.forall_mem_nil _
  case acknowledged =>
    intro _ exchange hmem acknowledgement hack
    rw [hnone exchange hmem] at hack
    cases hack
  case otherwise => exact fun _ => ⟨rfl, cause, rfl⟩

/-! ### Once the write is acknowledged -/

theorem only_settle (indexer : Indexer) (compiled : CompiledRule) (table : Table String)
    (acknowledgement : Acknowledgement) :
    Only (fun action => action ≠ .breakDown) (indexer.settle compiled table acknowledgement) := by
  have hnotice : ∀ notice, Only (fun action => action ≠ .breakDown) (notify notice) :=
    fun notice => .perform nofun
  have hask : Only (fun action => action ≠ .breakDown) (perform .askAbandoned) := .perform nofun
  have hkeep : ∀ mappings, Only (fun action => action ≠ .breakDown)
      (indexer.keeper.keep mappings) := by
    refine fun mappings => (only_keep indexer.keeper mappings).mono fun action hkind hbreak => ?_
    rw [hbreak] at hkind
    exact hkind
  have hrecord : Only (fun action => action ≠ .breakDown)
      (indexer.recordMappings compiled table) := by
    refine (hnotice _).bind fun _ => hask.bind fun abandoned => ?_
    cases abandoned with
    | true => exact .done _
    | false =>
      refine (hkeep _).bind fun kept => ?_
      cases kept with
      | error cause => exact hnotice _
      | ok _ => exact .done _
  exact hrecord.bind fun _ => (hnotice _).bind fun _ => .done _

theorem stages_of_writes {write : Exchange} {written rest : List Exchange}
    (hwrites : Writes indexer request handler written write artifact table) :
    (written ++ write :: rest).filterMap Exchange.stage? =
      [.initializing, .discovering, .compiling, .persisting] ++
        rest.filterMap Exchange.stage? := by
  obtain ⟨time, haction⟩ := action_of_writes hwrites
  rw [List.filterMap_append, hwrites.stages]
  obtain ⟨action, answer⟩ := write
  subst haction
  rfl

theorem acknowledgement_unique {write exchange : Exchange} {written asked : List Exchange}
    {acknowledgement other : Acknowledgement}
    (hwrites : Writes indexer request handler written write artifact table)
    (hasked : ∀ exchange ∈ asked, IsQuiet indexer.rulesIndex exchange.action)
    (hack : write.acknowledgement? = some acknowledgement)
    (hmem : exchange ∈ written ++ write :: asked)
    (hother : exchange.acknowledgement? = some other) : other = acknowledgement := by
  rw [List.mem_append, List.mem_cons] at hmem
  obtain hmem | rfl | hmem := hmem
  · rw [not_acknowledged_of_quiet hwrites.quiet exchange hmem] at hother
    cases hother
  · exact Option.some.inj (hother.symm.trans hack)
  · rw [not_acknowledged_of_quiet hasked exchange hmem] at hother
    cases hother

/-- What follows an acknowledged write: the run's own questions, the keeper's doing, and notices.
Without the keeper all of it is the run's own. -/
theorem parts_of_settle {compiled : CompiledRule} {rest : List Exchange} {start ended : σ}
    {acknowledgement : Acknowledgement} {result : Option (Except IndexError Acknowledgement)}
    (h : Ran handler (indexer.settle compiled table acknowledgement) start rest result ended) :
    ∃ asked kept closing, rest = asked ++ kept ++ closing ∧
      (∀ exchange ∈ asked, IsQuiet indexer.rulesIndex exchange.action) ∧
      (∀ exchange ∈ kept, IsKeeping indexer.keeper exchange.action) ∧
      (∀ exchange ∈ closing, ∃ notice, exchange.action = .notify notice) ∧
      (kept = [] ∨ KeepsOnce indexer compiled table handler asked kept closing) := by
  obtain ⟨-, hquiet | ⟨asked, kept, closing, hrest, hkeeps⟩⟩ := settle_cases h
  · exact ⟨rest, [], [], by simp, hquiet, List.forall_mem_nil _, List.forall_mem_nil _, .inl rfl⟩
  · obtain ⟨before, value, after, hkeep⟩ := hkeeps.keeper_ran
    refine ⟨asked, kept, closing, hrest, ?_, (only_keep _ _).of_ran hkeep, hkeeps.notices,
      .inr hkeeps⟩
    rw [hkeeps.awaited]
    simp [given, IsQuiet]

/-- A run whose write is acknowledged has that acknowledgement as its outcome if it ends. -/
theorem orderly_of_stored {write : Exchange} {written rest : List Exchange}
    {acknowledgement : Acknowledgement} {result : Option (Except IndexError Acknowledgement)}
    {start ended : σ} (hwrites : Writes indexer request handler written write artifact table)
    (hack : write.acknowledgement? = some acknowledgement)
    (hsettled : Ran handler (indexer.settle (Toolchain.compiledRule request artifact) table
      acknowledgement) start rest result ended) :
    ∃ own kept closing, Orderly indexer request handler (written ++ write :: rest)
      (outcomeOf result) own kept closing := by
  obtain ⟨hresult, -⟩ := settle_cases hsettled
  -- Nothing after the write can break down, so the run ends if its surroundings return.
  have hends : Returns handler → result = some (.ok acknowledgement) := by
    intro hreturns
    obtain ⟨value, rfl⟩ := (only_settle _ _ _ _).ends (fun action state => hreturns action state)
      hsettled
    obtain ⟨habsurd, -⟩ | ⟨hvalue, -⟩ := hresult
    · cases habsurd
    · exact hvalue
  have hstages : (written ++ write :: rest).filterMap Exchange.stage? <+: Stage.order := by
    rw [stages_of_writes hwrites]
    obtain ⟨-, hinitial⟩ | ⟨-, hboth⟩ := hresult
    · exact List.prefix_append_right_inj _ |>.mpr hinitial
    · rw [hboth]
      exact List.prefix_rfl
  have hdone : Returns handler →
      .done ∈ (written ++ write :: rest).filterMap Exchange.stage? := by
    intro hreturns
    rw [stages_of_writes hwrites]
    obtain ⟨hnone, -⟩ | ⟨-, hboth⟩ := hresult
    · cases hnone.symm.trans (hends hreturns)
    · rw [hboth]
      simp
  obtain ⟨asked, kept, closing, rfl, hasked, hkeeping, hclosing, hkept⟩ :=
    parts_of_settle hsettled
  have hwritesOnce := writesOnce_of_writes hwrites hasked
  have hsplit : written ++ write :: (asked ++ kept ++ closing) =
      (written ++ write :: asked) ++ kept ++ closing := by
    simp
  refine ⟨written ++ write :: asked, kept, closing, ?_⟩
  constructor
  case parts => exact hsplit
  case stages_in_order => exact hstages
  case done_iff =>
    intro hreturns
    refine ⟨fun _ => ⟨acknowledgement, ?_⟩, fun _ => hdone hreturns⟩
    rw [hends hreturns]
    rfl
  case no_category => exact fun hempty => absurd hempty hwrites.has_category
  case writes_once => exact hwritesOnce
  case changes_rules_once =>
    intro hother
    rw [hsplit]
    exact countP_changesDocumentIn_le_one hother hwritesOnce hkeeping hclosing
  case kept_after_write =>
    obtain hnone | hkeeps := hkept
    · exact .inl hnone
    · exact .inr ⟨written, write, asked, artifact, table, acknowledgement, rfl, hwrites, hack,
        hkeeps⟩
  case closing_notices => exact hclosing
  case acknowledged =>
    intro hreturns exchange hmem other hother
    rw [hends hreturns, acknowledgement_unique hwrites hasked hack hmem hother]
    rfl
  case otherwise =>
    intro hnone
    have habsurd := hnone write (by simp)
    rw [hack] at habsurd
    cases habsurd

/-! ### Every run -/

/-- Whatever answers a run to index a rule, it goes in order. -/
theorem indexRule_orderly (indexer : Indexer) (request : IndexRequest) (handler : Handler σ)
    (state : σ) :
    ∃ own kept closing, Orderly indexer request handler
      ((indexer.indexRule request).trace handler state)
      (outcomeOf ((indexer.indexRule request).run handler state).1) own kept closing := by
  have hcourse := course_of_ran (Ran.of_run handler (indexer.indexRule request) state)
  revert hcourse
  generalize (indexer.indexRule request).trace handler state = exchanges
  generalize ((indexer.indexRule request).run handler state).1 = result
  intro hcourse
  cases hcourse with
  | unwritten hquiet hempty hstages hfails =>
    exact ⟨exchanges, [], [], orderly_of_fails (writesOnce_of_quiet hquiet)
      (not_acknowledged_of_quiet hquiet) hempty hstages hfails⟩
  | @unacknowledged before write after artifact table result hwrites hnone hafter hfails =>
    have hquiet : ∀ exchange ∈ after, IsQuiet indexer.rulesIndex exchange.action := by
      intro exchange hmem
      obtain ⟨warning, haction⟩ := hafter exchange hmem
      rw [haction]
      trivial
    have hstages : after.filterMap Exchange.stage? = [] := by
      refine List.filterMap_eq_nil_iff.mpr fun exchange hmem => ?_
      obtain ⟨warning, haction⟩ := hafter exchange hmem
      obtain ⟨action, answer⟩ := exchange
      subst haction
      rfl
    refine ⟨_, [], [], orderly_of_fails (writesOnce_of_writes hwrites hquiet) ?_
      (fun hempty => absurd hempty hwrites.has_category) ?_ hfails⟩
    · exact List.forall_mem_append.mpr ⟨not_acknowledged_of_quiet hwrites.quiet,
        List.forall_mem_cons.mpr ⟨hnone, not_acknowledged_of_quiet hquiet⟩⟩
    · rw [stages_of_writes hwrites, hstages]
      exact List.prefix_rfl
  | stored hwrites hack hsettled => exact orderly_of_stored hwrites hack hsettled

/-- An indexer that hands its field mappings over. -/
def externalIndexer : Indexer :=
  { tools := .standard, rulesIndex := "rules", writeTimeout := 30, keeper := .external "ecs" }

/-- A request to index a rule with one condition. -/
def plainRequest : IndexRequest :=
  .make "title: t\ndetection:\n  sel:\n    a: 1\n  condition: sel\n" "test" false .none

/-- A store in memory answers everything, so the run comes to its last stage. -/
theorem indexRule_orderly_inMemory :
    Returns (Memory.handler "now") ∧
    (externalIndexer.indexRule plainRequest).stages (Memory.handler "now") .empty = Stage.order ∧
    ∃ own kept closing, Orderly externalIndexer plainRequest (Memory.handler "now")
        ((externalIndexer.indexRule plainRequest).trace (Memory.handler "now") .empty)
        (outcomeOf ((externalIndexer.indexRule plainRequest).run (Memory.handler "now") .empty).1)
        own kept closing ∧
      ∃ acknowledgement, outcomeOf
        ((externalIndexer.indexRule plainRequest).run (Memory.handler "now") .empty).1 =
          .ok acknowledgement := by
  have hstages : (externalIndexer.indexRule plainRequest).stages (Memory.handler "now") .empty =
      Stage.order := by
    decide +kernel
  obtain ⟨own, kept, closing, horderly⟩ :=
    indexRule_orderly externalIndexer plainRequest (Memory.handler "now") .empty
  refine ⟨Memory.returns_handler "now", hstages, own, kept, closing, horderly, ?_⟩
  have hdone : Stage.done ∈
      (externalIndexer.indexRule plainRequest).stages (Memory.handler "now") .empty := by
    rw [hstages]
    decide
  exact (horderly.done_iff (Memory.returns_handler "now")).mp hdone

end Indexer

end SigmaCatalog
