import CanaryRouting.Cluster.Interleaving
import CanaryRouting.Router.Plan

/-!
# Transcripts

What a program has asked and what it was answered, from its beginning to its end, is its transcript
(`Program.Ends`). A program in two parts has a transcript in two parts (`Ends.of_bind`,
`Ends.of_bindCall`).
-/

namespace CanaryRouting

namespace Program

variable {α β : Type}

/-- The program asks the requests of these events, is answered as they say, and ends with this
result. -/
inductive Ends : Program α → List Event → α → Prop where
  /-- It ends at once. -/
  | done {a : α} : Ends (.done a) [] a
  /-- It asks, and goes on with the answer. -/
  | ask {i : Nat} {r : Request} {answer : Except ApiFailure r.Answer} {c : Cluster}
    {next : Except ApiFailure r.Answer → Program α} {es : List Event} {a : α} :
    Ends (next answer) es a → Ends (.ask r next) (⟨i, r, answer, c⟩ :: es) a
  /-- It waits for a lock, and goes on. -/
  | lock {space document : String} {next : Program α} {es : List Event} {a : α} :
    Ends next es a → Ends (.lock space document next) es a

namespace Ends

theorem of_bind {p : Program α} {f : α → Program β} {es : List Event} {b : β}
    (h : (p.bind f).Ends es b) :
    ∃ a es₁ es₂, es = es₁ ++ es₂ ∧ p.Ends es₁ a ∧ (f a).Ends es₂ b := by
  induction p generalizing es with
  | done a => exact ⟨a, [], es, rfl, .done, h⟩
  | ask r next ih =>
    cases h with
    | ask h =>
      obtain ⟨a, es₁, es₂, rfl, hp, hf⟩ := ih _ h
      exact ⟨a, _ :: es₁, es₂, rfl, .ask hp, hf⟩
  | lock space document next ih =>
    cases h with
    | lock h =>
      obtain ⟨a, es₁, es₂, rfl, hp, hf⟩ := ih h
      exact ⟨a, es₁, es₂, rfl, .lock hp, hf⟩

/-- Both parts of an operation that succeeds have succeeded. -/
theorem of_bindCall {p : Call α} {f : α → Call β} {es : List Event} {b : β}
    (h : (p >>= f).run.Ends es (.ok b)) :
    ∃ a es₁ es₂, es = es₁ ++ es₂ ∧ p.run.Ends es₁ (.ok a) ∧ (f a).run.Ends es₂ (.ok b) := by
  obtain ⟨x, es₁, es₂, rfl, hp, hf⟩ := of_bind h
  cases x with
  | ok a => exact ⟨a, es₁, es₂, rfl, hp, hf⟩
  | error e => cases hf

theorem done_iff {a b : α} {es : List Event} : (Program.done a).Ends es b ↔ es = [] ∧ a = b :=
  ⟨fun h => by cases h; exact ⟨rfl, rfl⟩, fun ⟨h, h'⟩ => by cases h; cases h'; exact .done⟩

theorem of_ofExcept {x : Except RoutingError α} {es : List Event} {a : α}
    (h : (Call.ofExcept x).run.Ends es (.ok a)) : es = [] ∧ x = .ok a := by
  cases x with
  | ok a' => cases h; exact ⟨rfl, rfl⟩
  | error e => cases h

theorem of_pure {a b : α} {es : List Event} (h : (pure a : Call α).run.Ends es (.ok b)) :
    es = [] ∧ a = b := by
  cases h
  exact ⟨rfl, rfl⟩

theorem of_acquire {space document : String} {es : List Event} {a : Unit}
    (h : (Call.acquire space document).run.Ends es (.ok a)) : es = [] := by
  cases h with
  | lock h => cases h; rfl

theorem of_request {r : Request} {es : List Event} {a : r.Answer}
    (h : (Call.ofStore (Store.perform r)).run.Ends es (.ok a)) :
    ∃ i c, es = [⟨i, r, .ok a, c⟩] := by
  cases h with
  | @ask i _ answer c _ _ _ h =>
    cases answer with
    | ok a' => cases h; exact ⟨i, c, rfl⟩
    | error e => cases h

/-- Reading a document succeeds also if there is none. -/
theorem of_getDocument {space name : String} {es : List Event} {d? : Option Document}
    (h : (Call.ofStore (Store.getDocument space name)).run.Ends es (.ok d?)) :
    ∃ i answer c, es = [⟨i, .getDocument space name, answer, c⟩] ∧
      d? = answer.toOption := by
  cases h with
  | @ask i _ answer c _ es _ h =>
    obtain ⟨rfl, hend⟩ := done_iff.1 h
    refine ⟨i, answer, c, rfl, ?_⟩
    cases answer with
    | ok d =>
      cases hend
      rfl
    | error failure =>
      unfold Except.mapError at hend
      dsimp only at hend
      cases hf : StoreError.ofFailure (Request.getDocument space name).what failure <;>
        rw [hf] at hend <;> cases hend
      rfl

end Ends

end Program

end CanaryRouting
