/-!
# Steps that can fail

Steps in a row succeed if each of them does. That is what is left of a calculation that has
succeeded: the results of its steps.
-/

namespace CanaryRouting.Except

universe u v w

variable {ε ε' : Type u} {α β : Type v}

theorem map_eq_ok {x : Except ε α} {f : α → β} {b : β} :
    x.map f = .ok b ↔ ∃ a, x = .ok a ∧ f a = b := by
  cases x with
  | ok a => simp [Except.map]
  | error e => simp [Except.map]

theorem map_eq_error {x : Except ε α} {f : α → β} {e : ε} :
    x.map f = .error e ↔ x = .error e := by
  cases x with
  | ok a => simp [Except.map]
  | error e' => simp [Except.map]

theorem mapError_eq_ok {x : Except ε α} {f : ε → ε'} {a : α} :
    x.mapError f = .ok a ↔ x = .ok a := by
  cases x with
  | ok a' =>
    change (Except.ok a' : Except ε' α) = .ok a ↔ Except.ok a' = .ok a
    simp
  | error e =>
    change (Except.error (f e) : Except ε' α) = .ok a ↔ Except.error e = .ok a
    simp

theorem mapError_eq_error {x : Except ε α} {f : ε → ε'} {e' : ε'} :
    x.mapError f = .error e' ↔ ∃ e, x = .error e ∧ f e = e' := by
  cases x with
  | ok a =>
    change (Except.ok a : Except ε' α) = .error e' ↔ ∃ e, Except.ok a = .error e ∧ f e = e'
    simp
  | error e =>
    change (Except.error (f e) : Except ε' α) = .error e' ↔
      ∃ e₁, Except.error e = .error e₁ ∧ f e₁ = e'
    simp

theorem bind_eq_ok {x : Except ε α} {f : α → Except ε β} {b : β} :
    x >>= f = .ok b ↔ ∃ a, x = .ok a ∧ f a = .ok b := by
  cases x with
  | ok a => simp [bind, Except.bind]
  | error e => simp [bind, Except.bind]

theorem bind_eq_error {x : Except ε α} {f : α → Except ε β} {e : ε} :
    x >>= f = .error e ↔ x = .error e ∨ ∃ a, x = .ok a ∧ f a = .error e := by
  cases x with
  | ok a => simp [bind, Except.bind]
  | error e' => simp [bind, Except.bind]

/-- A fold that succeeds has a first step, and goes on with what it gives. -/
theorem foldlM_cons_eq_ok {γ : Type w} {f : β → γ → Except ε β} {c : γ} {cs : List γ} {b b' : β} :
    (c :: cs).foldlM f b = .ok b' ↔ ∃ b₁, f b c = .ok b₁ ∧ cs.foldlM f b₁ = .ok b' := by
  rw [List.foldlM_cons, bind_eq_ok]

end CanaryRouting.Except
