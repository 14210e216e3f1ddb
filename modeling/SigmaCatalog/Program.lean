import SigmaCatalog.FieldMapping
import SigmaCatalog.Notice
import SigmaCatalog.Store.Call

/-!
# Programs over a store

A program is a tree of actions: it ends with a value, or it performs an action and goes on with what
comes back.  Whatever answers the actions is a handler; between two actions of one program any other
program may act, since nothing but the actions touches what they share.
-/

namespace SigmaCatalog

/-- What a program asks its surroundings to do. -/
inductive Action where
  | store (call : Call)
  /-- A store call that is given up after some seconds. -/
  | storeWithin (seconds : Nat) (call : Call)
  /-- Hands field mappings to a keeper outside the store. -/
  | handOver (mappings : List FieldMapping)
  /-- Asks whether nobody waits for the outcome any more. -/
  | askAbandoned
  | notify (notice : Notice)
  /-- Asks for the time of day. -/
  | askTime
  /-- The program breaks down. -/
  | breakDown

/-- What comes back from an action. -/
abbrev Action.Answer : Action → Type
  | store call => call.Reply
  /- Nothing comes back from a call that was given up. -/
  | storeWithin _ call => Option call.Reply
  | handOver _ => Except MappingError Unit
  | askAbandoned => Bool
  | notify _ => Unit
  | askTime => String
  | breakDown => Empty

/-- A program that ends with a value of type `α`. -/
inductive Program (α : Type) where
  | done (value : α)
  | act (action : Action) (next : action.Answer → Program α)

namespace Program

variable {α β γ σ : Type}

/-- One program after another. -/
def bind : Program α → (α → Program β) → Program β
  | done value, following => following value
  | act action next, following => act action fun answer => (next answer).bind following

instance : Monad Program where
  pure := done
  bind := bind

@[simp]
theorem bind_done (program : Program α) : program.bind done = program := by
  induction program with
  | done value => rfl
  | act action next ih => simp [bind, ih]

theorem bind_assoc (program : Program α) (following : α → Program β) (last : β → Program γ) :
    (program.bind following).bind last = program.bind fun value => (following value).bind last := by
  induction program with
  | done value => rfl
  | act action next ih => simp [bind, ih]

instance : LawfulMonad Program :=
  LawfulMonad.mk' _ bind_done (fun _ _ => rfl) bind_assoc

def perform (action : Action) : Program action.Answer :=
  act action done

def call (call : Call) : Program call.Reply :=
  perform (.store call)

def notify (notice : Notice) : Program Unit :=
  perform (.notify notice)

def notifyAll : List Notice → Program Unit
  | [] => done ()
  | notice :: notices => do
    notify notice
    notifyAll notices

def warn (warning : Warning) : Program Unit :=
  notify (.warning warning)

def breakDown : Program α :=
  act .breakDown fun answer => nomatch answer

/-- Performs an action in a state; nothing comes back from an action that never ends. -/
abbrev Handler (σ : Type) : Type :=
  (action : Action) → σ → Option action.Answer × σ

/-- Runs a program to its end; it has no value when an action never ends. -/
def run (handler : Handler σ) : Program α → σ → Option α × σ
  | done value, state => (some value, state)
  | act action next, state =>
    match handler action state with
    | (some answer, state) => (next answer).run handler state
    | (none, state) => (none, state)

/-- Running one program after another is running the second from where the first has ended. -/
theorem run_bind (handler : Handler σ) (program : Program α) (following : α → Program β)
    (state : σ) :
    (program.bind following).run handler state =
      match program.run handler state with
      | (some value, state) => (following value).run handler state
      | (none, state) => (none, state) := by
  induction program generalizing state with
  | done value => rfl
  | act action next ih =>
    simp only [bind, run]
    split
    · exact ih _ _
    · rfl

end Program

end SigmaCatalog
