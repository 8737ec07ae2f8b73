import CanaryRouting.Error

/-!
# Transactions

Writes that must happen together are the steps of a transaction. The steps are applied in order;
when one fails, those before it are undone in the opposite order, each once, whether or not the
undoing of another fails. What could not be undone is part of the error.
-/

namespace CanaryRouting

/-- A kind of step that can be applied and undone by actions of a monad; both return the step as
it is afterwards. -/
class Reversible (m : Type → Type) (σ : Type) where
  /-- What a step does, as messages say it. -/
  describe : σ → String
  /-- Applies a step. -/
  apply : σ → m (Except StoreError σ)
  /-- Undoes an applied step. -/
  compensate : σ → m (Except StoreError σ)

namespace Transaction

variable {m : Type → Type} [Monad m] {σ : Type} [Reversible m σ]

/-- Undoes applied steps, given the last one first, and returns what failed. -/
def compensateAll : List σ → m (List CompensationFailure)
  | [] => return []
  | step :: earlier => do
    match ← Reversible.compensate (m := m) step with
    | .ok _ => compensateAll earlier
    | .error error =>
      return ⟨Reversible.describe m step, error⟩ :: (← compensateAll earlier)

/-- Applies the steps that are left, given those already applied, the last one first. -/
def runFrom (applied : List σ) : List σ → m (Except TransactionFailure (List σ))
  | [] => return .ok applied.reverse
  | step :: later => do
    match ← Reversible.apply (m := m) step with
    | .ok step' => runFrom (step' :: applied) later
    | .error source =>
      return .error ⟨Reversible.describe m step, source, ← compensateAll applied⟩

/-- Runs a transaction; when it succeeds, the steps are returned as they are afterwards. -/
def run (steps : List σ) : m (Except TransactionFailure (List σ)) := runFrom [] steps

end Transaction

end CanaryRouting
