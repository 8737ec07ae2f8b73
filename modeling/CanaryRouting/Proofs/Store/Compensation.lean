import CanaryRouting.Store.Program
import CanaryRouting.Store.Rehearsal

/-!
# The calls of a transaction

A transaction calls its steps: it applies them and, when one of them fails, undoes those before it.
Which calls it makes, in which order and with which outcomes is said by comparison with a program
that makes a given list of calls and does nothing else (`makeAll`). A run of the transaction ends
with the outcomes and in the state of just these calls (`runs_run`), in every monad whose actions
can be carried out one after the other (`Execution`): against a server, or with a journal.
-/

namespace CanaryRouting

/-- A way to carry out the actions of a monad from a state, one after the other. -/
structure Execution (m : Type → Type) [Monad m] (S : Type) where
  /-- Carries out an action. -/
  run : {α : Type} → m α → S → α × S
  /-- An action that only returns something changes nothing. -/
  run_pure : ∀ {α : Type} (a : α) (s : S), run (pure a) s = (a, s)
  /-- An action in two parts is one part after the other. -/
  run_bind : ∀ {α β : Type} (p : m α) (f : α → m β) (s : S),
    run (p >>= f) s = run (f (run p s).1) (run p s).2

namespace Execution

/-- Programs are run against a server. -/
def ofServer {S : Type} (server : Program.Server S) : Execution Program S where
  run p s := p.run server s
  run_pure _ _ := rfl
  run_bind p f s := Program.run_bind server p f s

/-- Actions on a state are run from a state. -/
def stateful (S : Type) : Execution (StateM S) S where
  run p s := p s
  run_pure _ _ := rfl
  run_bind _ _ _ := rfl

end Execution

namespace Transaction

/-! ### Calls -/

/-- A call of a step. -/
inductive StepCall (σ : Type) where
  /-- The step is applied. -/
  | apply (step : σ)
  /-- The step is undone. -/
  | compensate (step : σ)

section

variable (m : Type → Type) [Monad m] {σ : Type} [Reversible m σ]

/-- Makes a call. -/
def StepCall.make : StepCall σ → m (Except StoreError σ)
  | .apply step => Reversible.apply step
  | .compensate step => Reversible.compensate step

/-- Makes calls, one after the other, whatever comes of them. -/
def makeAll : List (StepCall σ) → m (List (Except StoreError σ))
  | [] => return []
  | call :: calls => return (← call.make m) :: (← makeAll calls)

/-- The failures among the outcomes of steps that are undone, in their order. -/
def failuresOf (steps : List σ) (outcomes : List (Except StoreError σ)) :
    List CompensationFailure :=
  (steps.zip outcomes).filterMap fun (step, outcome) =>
    match outcome with
    | .ok _ => none
    | .error error => some ⟨Reversible.describe m step, error⟩

end

section

variable {m : Type → Type} [Monad m] {σ : Type} [Reversible m σ] {S : Type}

/-- How a transaction of these steps runs from a state, with the result and the state that it
leaves. -/
inductive Runs (E : Execution m S) (steps : List σ) (s : S) :
    Except TransactionFailure (List σ) → S → Prop where
  /-- The steps are applied in order, which succeeds, and nothing else is done. -/
  | completed {applied : List σ} {s' : S} : applied.length = steps.length →
    E.run (makeAll m (steps.map .apply)) s = (applied.map .ok, s') →
    Runs E steps s (.ok applied) s'
  /-- The steps are applied in order up to one that fails. Those before it are then undone in the
  opposite order, each once and whatever comes of undoing the others, and nothing else is done. The
  failure tells of the step that failed and of those that could not be undone. -/
  | abandoned {before after applied : List σ} {step : σ} {undone : List (Except StoreError σ)}
    {failure : TransactionFailure} {s' : S} : steps = before ++ step :: after →
    applied.length = before.length →
    E.run (makeAll m
        (before.map .apply ++ .apply step :: applied.reverse.map .compensate)) s =
      (applied.map .ok ++ .error failure.source :: undone, s') →
    failure.step = Reversible.describe m step →
    failure.compensationFailures = failuresOf m applied.reverse undone →
    (failure.isConsistent = true ↔ ∀ outcome ∈ undone, outcome.isOk = true) →
    Runs E steps s (.error failure) s'

/-! ### Making calls -/

variable (E : Execution m S)

theorem run_makeAll_nil (s : S) : E.run (makeAll m ([] : List (StepCall σ))) s = ([], s) :=
  E.run_pure _ _

theorem run_makeAll_cons (call : StepCall σ) (calls : List (StepCall σ)) (s : S) :
    E.run (makeAll m (call :: calls)) s =
      ((E.run (call.make m) s).1 :: (E.run (makeAll m calls) (E.run (call.make m) s).2).1,
        (E.run (makeAll m calls) (E.run (call.make m) s).2).2) := by
  rw [makeAll, E.run_bind, E.run_bind, E.run_pure]

theorem run_makeAll_append (calls calls' : List (StepCall σ)) (s : S) :
    E.run (makeAll m (calls ++ calls')) s =
      ((E.run (makeAll m calls) s).1 ++ (E.run (makeAll m calls') (E.run (makeAll m calls) s).2).1,
        (E.run (makeAll m calls') (E.run (makeAll m calls) s).2).2) := by
  induction calls generalizing s with
  | nil => rw [List.nil_append, run_makeAll_nil, List.nil_append]
  | cons call calls ih =>
    rw [List.cons_append, run_makeAll_cons, run_makeAll_cons, ih, List.cons_append]

/-- Every call has an outcome. -/
theorem length_makeAll (calls : List (StepCall σ)) (s : S) :
    (E.run (makeAll m calls) s).1.length = calls.length := by
  induction calls generalizing s with
  | nil => simp only [run_makeAll_nil, List.length_nil]
  | cons call calls ih => rw [run_makeAll_cons, List.length_cons, List.length_cons, ih]

/-- Calls with known outcomes are made in three parts: those before one of them, that one, and those
after it. -/
theorem split_of_makeAll {calls calls' : List (StepCall σ)} {call : StepCall σ}
    {outcomes outcomes' : List (Except StoreError σ)} {outcome : Except StoreError σ} {s s' : S}
    (hlength : outcomes.length = calls.length)
    (h : E.run (makeAll m (calls ++ call :: calls')) s = (outcomes ++ outcome :: outcomes', s')) :
    ∃ s₁ s₂, E.run (makeAll m calls) s = (outcomes, s₁) ∧ E.run (call.make m) s₁ = (outcome, s₂) ∧
      E.run (makeAll m calls') s₂ = (outcomes', s') := by
  rw [run_makeAll_append, run_makeAll_cons] at h
  obtain ⟨houtcomes, hstate⟩ := Prod.mk.inj h
  obtain ⟨hbefore, houtcomes⟩ :=
    List.append_inj houtcomes ((length_makeAll E calls s).trans hlength.symm)
  obtain ⟨hcall, hafter⟩ := List.cons.inj houtcomes
  exact ⟨_, _, Prod.ext hbefore rfl, Prod.ext hcall rfl, Prod.ext hafter hstate⟩

/-! ### Undoing -/

omit [Monad m] in
theorem failuresOf_eq_nil_iff {steps : List σ} {outcomes : List (Except StoreError σ)}
    (h : steps.length = outcomes.length) :
    failuresOf m steps outcomes = [] ↔ ∀ outcome ∈ outcomes, outcome.isOk = true := by
  induction steps generalizing outcomes with
  | nil => simp [List.length_eq_zero_iff.1 h.symm, failuresOf]
  | cons step steps ih =>
    cases outcomes with
    | nil => cases h
    | cons outcome outcomes =>
      rw [List.forall_mem_cons, ← ih (Nat.succ.inj h)]
      cases outcome <;> simp [failuresOf, Except.isOk, Except.toBool]

theorem run_compensateAll (steps : List σ) (s : S) :
    E.run (compensateAll (m := m) steps) s =
      (failuresOf m steps (E.run (makeAll m (steps.map .compensate)) s).1,
        (E.run (makeAll m (steps.map .compensate)) s).2) := by
  induction steps generalizing s with
  | nil => rw [compensateAll, E.run_pure, List.map_nil, run_makeAll_nil]; rfl
  | cons step steps ih =>
    rw [compensateAll, E.run_bind, List.map_cons, run_makeAll_cons]
    change E.run (match (E.run (Reversible.compensate step : m _) s).1 with
      | .ok _ => _
      | .error _ => _) _ = (failuresOf m _ ((E.run (Reversible.compensate step : m _) s).1 :: _), _)
    cases (E.run (Reversible.compensate step : m _) s).1 with
    | ok _ => exact ih _
    | error e =>
      simp only [E.run_bind, E.run_pure, ih]
      rfl

/-! ### Applying -/

/-- The first step that is left is applied; the rest of the run depends on whether that
succeeds. -/
theorem run_runFrom_cons (stack : List σ) (step : σ) (later : List σ) (s : S) :
    E.run (runFrom (m := m) stack (step :: later)) s =
      match (E.run (StepCall.make m (.apply step)) s).1 with
      | .ok step' =>
        E.run (runFrom (step' :: stack) later) (E.run (StepCall.make m (.apply step)) s).2
      | .error source =>
        (.error ⟨Reversible.describe m step, source,
          failuresOf m stack (E.run (makeAll m (stack.map .compensate))
            (E.run (StepCall.make m (.apply step)) s).2).1⟩,
          (E.run (makeAll m (stack.map .compensate))
            (E.run (StepCall.make m (.apply step)) s).2).2) := by
  rw [runFrom, E.run_bind, StepCall.make]
  cases (E.run (Reversible.apply step : m _) s).1 with
  | ok step' => rfl
  | error source => simp only [E.run_bind, E.run_pure, run_compensateAll]

theorem completed_runFrom {stack steps result : List σ} {s s' : S}
    (h : E.run (runFrom (m := m) stack steps) s = (.ok result, s')) :
    ∃ applied : List σ, result = stack.reverse ++ applied ∧ applied.length = steps.length ∧
      E.run (makeAll m (steps.map .apply)) s = (applied.map .ok, s') := by
  induction steps generalizing stack s with
  | nil =>
    rw [runFrom, E.run_pure] at h
    cases h
    exact ⟨[], (List.append_nil _).symm, rfl, run_makeAll_nil E _⟩
  | cons step later ih =>
    rw [run_runFrom_cons] at h
    cases hstep : (E.run (StepCall.make m (.apply step)) s).1 with
    | error source => rw [hstep] at h; cases h
    | ok step' =>
      rw [hstep] at h
      obtain ⟨applied, rfl, hlength, hcalls⟩ := ih h
      refine ⟨step' :: applied, by simp, by simp [hlength], ?_⟩
      rw [List.map_cons, run_makeAll_cons, hcalls, hstep, List.map_cons]

/-- The steps that have been applied before are undone, too, after those that are applied now. -/
theorem abandoned_runFrom {stack steps : List σ} {failure : TransactionFailure} {s s' : S}
    (h : E.run (runFrom (m := m) stack steps) s = (.error failure, s')) :
    ∃ (before after applied : List σ) (step : σ) (undone : List (Except StoreError σ)),
      steps = before ++ step :: after ∧ applied.length = before.length ∧
      E.run (makeAll m (before.map .apply ++
          .apply step :: (applied.reverse ++ stack).map .compensate)) s =
        (applied.map .ok ++ .error failure.source :: undone, s') ∧
      failure.step = Reversible.describe m step ∧
      failure.compensationFailures = failuresOf m (applied.reverse ++ stack) undone := by
  induction steps generalizing stack s with
  | nil =>
    rw [runFrom, E.run_pure] at h
    cases h
  | cons step later ih =>
    rw [run_runFrom_cons] at h
    cases hstep : (E.run (StepCall.make m (.apply step)) s).1 with
    | error source =>
      rw [hstep] at h
      cases h
      refine ⟨[], later, [], step, _, rfl, rfl, ?_, rfl, rfl⟩
      rw [List.map_nil, List.nil_append, run_makeAll_cons, hstep]
      rfl
    | ok step' =>
      rw [hstep] at h
      obtain ⟨before, after, applied, failed, undone, rfl, hlength, hcalls, hdescribe,
        hfailures⟩ := ih h
      have hstack : (step' :: applied).reverse ++ stack = applied.reverse ++ step' :: stack := by
        simp
      refine ⟨step :: before, after, step' :: applied, failed, undone, rfl, by simp [hlength], ?_,
        hdescribe, hstack ▸ hfailures⟩
      rw [hstack, List.map_cons, List.cons_append, run_makeAll_cons, hcalls, hstep, List.map_cons,
        List.cons_append]

/-- Every transaction makes the calls that it should. -/
theorem runs_run (steps : List σ) (s : S) :
    Runs E steps s (E.run (run (m := m) steps) s).1 (E.run (run (m := m) steps) s).2 := by
  rcases hrun : E.run (run (m := m) steps) s with ⟨_ | _, s'⟩
  · next failure =>
    obtain ⟨before, after, applied, step, undone, hsteps, hlength, hcalls, hdescribe, hfailures⟩ :=
      abandoned_runFrom E hrun
    rw [List.append_nil] at hcalls hfailures
    refine .abandoned hsteps hlength hcalls hdescribe hfailures ?_
    have hundone : applied.reverse.length = undone.length := by
      have := length_makeAll E
        (before.map .apply ++ .apply step :: applied.reverse.map .compensate) s
      rw [hcalls] at this
      simp at this ⊢
      omega
    rw [TransactionFailure.isConsistent, List.isEmpty_iff, hfailures,
      failuresOf_eq_nil_iff hundone]
  · next result =>
    obtain ⟨applied, rfl, hlength, hcalls⟩ := completed_runFrom E hrun
    exact .completed hlength hcalls

end

end Transaction

end CanaryRouting
