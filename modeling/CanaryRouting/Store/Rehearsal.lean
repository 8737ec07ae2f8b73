import CanaryRouting.Store.Transaction

/-!
# Rehearsed transactions

A rehearsed step does nothing but note in a journal that it was applied or undone, and succeeds or
fails as its script says. It shows which steps a transaction applies and undoes, and in which
order.
-/

namespace CanaryRouting

/-- A step that acts by script. -/
structure RehearsedStep where
  /-- Its name. -/
  name : String
  /-- The error with which applying it fails, if it does. -/
  applyError : Option StoreError := none
  /-- The error with which undoing it fails, if it does. -/
  compensateError : Option StoreError := none
  deriving DecidableEq, Repr

namespace RehearsedStep

/-- Actions that add to a journal. -/
abbrev Journalled := StateM (List String)

/-- Notes an act and ends as the script says. -/
def act (entry : String) (error : Option StoreError) (step : RehearsedStep) :
    Journalled (Except StoreError RehearsedStep) := do
  modify (· ++ [entry])
  return match error with
    | some e => .error e
    | none => .ok step

instance : Reversible Journalled RehearsedStep where
  describe step := step.name
  apply step := act ("apply " ++ step.name) step.applyError step
  compensate step := act ("compensate " ++ step.name) step.compensateError step

/-- Runs a transaction of rehearsed steps; with its outcome comes the journal. -/
def rehearse (steps : List RehearsedStep) :
    Except TransactionFailure (List RehearsedStep) × List String :=
  ((Transaction.run steps : Journalled (Except TransactionFailure (List RehearsedStep))).run [])

end RehearsedStep

end CanaryRouting
