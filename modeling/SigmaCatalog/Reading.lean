/-!
# Steps of a reader

A reader works through a list of symbols.  One step of it yields a value together with the symbols
it left, and with a proof that it took at least one symbol, so that a reader made of steps ends.
-/

namespace SigmaCatalog.Reading

/-- What a step read from `input`, and the shorter list it left. -/
structure Step {σ : Type} (input : List σ) (α : Type) where
  value : α
  rest : List σ
  shorter : rest.length < input.length

namespace Step

variable {σ α β : Type} {input later : List σ}

/-- A step from a later place of the input, seen as a step from `input`. -/
def widen (step : Step later α) (h : later.length ≤ input.length) : Step input α :=
  { step with shorter := Nat.lt_of_lt_of_le step.shorter h }

def map (f : α → β) (step : Step input α) : Step input β :=
  { step with value := f step.value }

end Step

end SigmaCatalog.Reading
