import Mathlib.Data.List.Basic
import SigmaCatalog.Program.Trace

/-!
# How runs are put together

A run of one program after another is a run of the first and, if that ends, a run of the second from
where the first has ended.  What a program may ask for at all is said by the kind of its actions,
which is checked along the tree of the program once, whatever comes back.
-/

namespace SigmaCatalog.Program

variable {α β σ : Type}

/-- A run of a program: its exchanges, its value if it ends, and the state in which it stops. -/
structure Ran (handler : Handler σ) (program : Program α) (before : σ) (exchanges : List Exchange)
    (value : Option α) (after : σ) : Prop where
  trace_eq : program.trace handler before = exchanges
  run_eq : program.run handler before = (value, after)

/-- The exchange of a notice that has been given. -/
def given (notice : Notice) : Exchange :=
  ⟨.notify notice, some ()⟩

/-- Whether every action comes to an end, apart from a breakdown. -/
def Returns (handler : Handler σ) : Prop :=
  ∀ action state, action ≠ .breakDown → (handler action state).1.isSome = true

namespace Ran

variable {handler : Handler σ} {before after : σ} {exchanges : List Exchange}

theorem of_run (handler : Handler σ) (program : Program α) (state : σ) :
    Ran handler program state (program.trace handler state) (program.run handler state).1
      (program.run handler state).2 :=
  ⟨rfl, rfl⟩

theorem done_cases {value : α} {result : Option α}
    (h : Ran handler (done value) before exchanges result after) :
    exchanges = [] ∧ result = some value := by
  obtain ⟨htrace, hrun⟩ := h
  exact ⟨htrace.symm, (Prod.mk.inj hrun).1.symm⟩

theorem act_some {action : Action} {next : action.Answer → Program α} {answer : action.Answer}
    {between : σ} {result : Option α} (hanswer : handler action before = (some answer, between))
    (hnext : Ran handler (next answer) between exchanges result after) :
    Ran handler (act action next) before (⟨action, some answer⟩ :: exchanges) result after := by
  constructor
  · rw [trace, hanswer, ← hnext.trace_eq]
  · rw [run, hanswer, ← hnext.run_eq]

theorem act_none {action : Action} {next : action.Answer → Program α}
    (hanswer : handler action before = (none, after)) :
    Ran handler (act action next) before [⟨action, none⟩] none after := by
  constructor
  · rw [trace, hanswer]
  · rw [run, hanswer]

theorem act_cases {action : Action} {next : action.Answer → Program α} {result : Option α}
    (h : Ran handler (act action next) before exchanges result after) :
    (∃ answer between rest, handler action before = (some answer, between) ∧
      exchanges = ⟨action, some answer⟩ :: rest ∧
      Ran handler (next answer) between rest result after) ∨
    (handler action before = (none, after) ∧ exchanges = [⟨action, none⟩] ∧ result = none) := by
  obtain ⟨htrace, hrun⟩ := h
  rw [trace] at htrace
  rw [run] at hrun
  cases hanswer : handler action before with
  | mk answer between =>
    rw [hanswer] at htrace hrun
    cases answer with
    | some answer => exact .inl ⟨answer, between, _, rfl, htrace.symm, rfl, hrun⟩
    | none =>
      obtain ⟨rfl, rfl⟩ := Prod.mk.inj hrun
      exact .inr ⟨rfl, htrace.symm, rfl⟩

theorem perform_cases {action : Action} {following : action.Answer → Program α}
    {result : Option α}
    (h : Ran handler (perform action >>= following) before exchanges result after) :
    (∃ answer between rest, handler action before = (some answer, between) ∧
      exchanges = ⟨action, some answer⟩ :: rest ∧
      Ran handler (following answer) between rest result after) ∨
    (handler action before = (none, after) ∧ exchanges = [⟨action, none⟩] ∧ result = none) :=
  have h : Ran handler (act action following) before exchanges result after := h
  h.act_cases

theorem exchanges_of_perform {action : Action} {result : Option action.Answer}
    (h : Ran handler (perform action) before exchanges result after) :
    ∃ answer, exchanges = [⟨action, answer⟩] := by
  obtain ⟨answer, between, rest, -, rfl, hrest⟩ | ⟨-, rfl, -⟩ := h.act_cases
  · obtain ⟨rfl, -⟩ := hrest.done_cases
    exact ⟨_, rfl⟩
  · exact ⟨_, rfl⟩

theorem bind_cases {program : Program α} {following : α → Program β} {result : Option β}
    (h : Ran handler (program >>= following) before exchanges result after) :
    (∃ first value between second, Ran handler program before first (some value) between ∧
      Ran handler (following value) between second result after ∧
      exchanges = first ++ second) ∨
    (Ran handler program before exchanges none after ∧ result = none) := by
  induction program generalizing before exchanges with
  | done value => exact .inl ⟨[], value, before, exchanges, ⟨rfl, rfl⟩, h, rfl⟩
  | act action next ih =>
    -- The whole performs the first action of the program, and the hypothesis is about what follows.
    have h : Ran handler (act action fun answer => next answer >>= following) before exchanges
        result after := h
    obtain ⟨answer, between, rest, hanswer, rfl, hrest⟩ | ⟨hanswer, rfl, rfl⟩ := h.act_cases
    · obtain ⟨first, value, middle, second, hfirst, hsecond, rfl⟩ | ⟨hnext, rfl⟩ := ih answer hrest
      · exact .inl ⟨_, value, middle, second, act_some hanswer hfirst, hsecond, rfl⟩
      · exact .inr ⟨act_some hanswer hnext, rfl⟩
    · exact .inr ⟨act_none hanswer, rfl⟩

end Ran

/-! ## The kinds of actions of a program -/

/-- A program all of whose actions are of a kind. -/
inductive Only (kind : Action → Prop) : Program α → Prop
  | done (value : α) : Only kind (done value)
  | act {action : Action} {next : action.Answer → Program α} (haction : kind action)
    (hnext : ∀ answer, Only kind (next answer)) : Only kind (act action next)

namespace Only

variable {kind other : Action → Prop} {program : Program α}

theorem bind {following : α → Program β} (h : Only kind program)
    (hfollowing : ∀ value, Only kind (following value)) : Only kind (program >>= following) := by
  induction h with
  | done value => exact hfollowing value
  | act haction _ ih => exact .act haction ih

theorem perform {action : Action} (h : kind action) : Only kind (perform action) :=
  .act h .done

theorem mono (h : Only kind program) (himp : ∀ action, kind action → other action) :
    Only other program := by
  induction h with
  | done value => exact .done value
  | act haction _ ih => exact .act (himp _ haction) ih

/-- Whatever answers, the actions of a run are of the kind of its program. -/
theorem of_ran (h : Only kind program) {handler : Handler σ} {before after : σ}
    {exchanges : List Exchange} {result : Option α}
    (hran : Ran handler program before exchanges result after) :
    ∀ exchange ∈ exchanges, kind exchange.action := by
  induction h generalizing before exchanges with
  | done value => simp [hran.done_cases.1]
  | act haction _ ih =>
    obtain ⟨answer, between, rest, -, rfl, hrest⟩ | ⟨-, rfl, -⟩ := hran.act_cases
    · exact List.forall_mem_cons.mpr ⟨haction, ih answer hrest⟩
    · exact List.forall_mem_singleton.mpr haction

/-- A program ends if all its actions do. -/
theorem ends (h : Only kind program) {handler : Handler σ} {before after : σ}
    {exchanges : List Exchange} {result : Option α}
    (hends : ∀ action state, kind action → (handler action state).1.isSome = true)
    (hran : Ran handler program before exchanges result after) : ∃ value, result = some value := by
  induction h generalizing before exchanges with
  | done value => exact ⟨value, hran.done_cases.2⟩
  | act haction _ ih =>
    obtain ⟨answer, between, rest, -, -, hrest⟩ | ⟨hnone, -, -⟩ := hran.act_cases
    · exact ih answer hrest
    · have hsome := hends _ before haction
      rw [hnone] at hsome
      cases hsome

end Only

end SigmaCatalog.Program
