import SigmaCatalog.Program

/-!
# Traces of programs

The trace of a run lists the actions of a program with what came back from them.  A handler may
answer in any way, and may answer differently each time, since it has a state of its own; so what
holds of the trace under every handler holds whatever the surroundings do.
-/

namespace SigmaCatalog.Program

variable {α σ : Type}

/-- An action and what came back from it, if anything did. -/
structure Exchange where
  action : Action
  answer : Option action.Answer

namespace Exchange

def call? (exchange : Exchange) : Option Call :=
  match exchange.action with
  | .store call => some call
  | .storeWithin _ call => some call
  | _ => none

def stage? (exchange : Exchange) : Option Stage :=
  match exchange.action with
  | .notify (.entered stage) => some stage
  | _ => none

end Exchange

/-- The actions of a run in order.  Nothing follows an action that never ends. -/
def trace (handler : Handler σ) : Program α → σ → List Exchange
  | done _, _ => []
  | act action next, state =>
    match handler action state with
    | (some answer, state) => ⟨action, some answer⟩ :: (next answer).trace handler state
    | (none, _) => [⟨action, none⟩]

def stages (handler : Handler σ) (program : Program α) (state : σ) : List Stage :=
  (program.trace handler state).filterMap Exchange.stage?

def calls (handler : Handler σ) (program : Program α) (state : σ) : List Call :=
  (program.trace handler state).filterMap Exchange.call?

end SigmaCatalog.Program
