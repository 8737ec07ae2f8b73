import CanaryRouting.Cluster.Interleaving
import CanaryRouting.Router.Plan
import Mathlib.Logic.Function.Basic

/-!
# Protocols

A `Protocol` says what a caller may ask, given what it knows, and what it knows after each answer.
That a program follows one (`Program.Follows`) is shown along the program, whoever else uses the
server (`Follows.bind`, `Follows.bindCall`).

What a server and its callers' knowledge have to do with each other is an invariant. If every
permitted request keeps it, then so does every run, of one program (`Follows.run`) and of many
that take turns (`Traffic.run_follows`).
-/

namespace CanaryRouting

/-- What a caller may ask that knows something of type `γ`, and what it knows after an answer. -/
abbrev Protocol (γ : Type) := γ → (r : Request) → (Except ApiFailure r.Answer → γ) → Prop

/-- What two protocols permit, to a caller that knows what is known in both. -/
def Protocol.and {γ γ' : Type} (P : Protocol γ) (P' : Protocol γ') : Protocol (γ × γ') :=
  fun known r learn => P known.1 r (fun answer => (learn answer).1) ∧
    P' known.2 r fun answer => (learn answer).2

namespace Program

variable {γ α β σ : Type} {P : Protocol γ}

/-- The requests that a run asks. -/
def requests (server : Server σ) : Program α → σ → List Request
  | .done _, _ => []
  | .ask r next, s => r :: (next (server r s).1).requests server (server r s).2
  | .lock _ _ next, s => next.requests server s

/-- The program asks what the protocol permits, and in the end what it knows and its result are
as stated. -/
inductive Follows (P : Protocol γ) (post : γ → α → Prop) : γ → Program α → Prop where
  /-- It ends as stated. -/
  | done {g : γ} {a : α} : post g a → Follows P post g (.done a)
  /-- It asks what is permitted, and goes on likewise after every answer. -/
  | ask {g : γ} {r : Request} {learn : Except ApiFailure r.Answer → γ}
    {next : Except ApiFailure r.Answer → Program α} :
    P g r learn → (∀ answer, Follows P post (learn answer) (next answer)) →
      Follows P post g (.ask r next)
  /-- It waits for a lock, and goes on likewise. -/
  | lock {g : γ} {space document : String} {next : Program α} :
    Follows P post g next → Follows P post g (.lock space document next)

namespace Follows

variable {post post' : γ → α → Prop} {g : γ}

theorem mono {p : Program α} (h : Follows P post g p) (hpost : ∀ g a, post g a → post' g a) :
    Follows P post' g p := by
  induction h with
  | done h => exact .done (hpost _ _ h)
  | ask hask _ ih => exact .ask hask ih
  | lock _ ih => exact .lock ih

/-- A program that follows a protocol follows every one that permits as much. -/
theorem permit {P' : Protocol γ} {p : Program α} (h : Follows P post g p)
    (hP : ∀ g r learn, P g r learn → P' g r learn) : Follows P' post g p := by
  induction h with
  | done h => exact .done h
  | ask hask _ ih => exact .ask (hP _ _ _ hask) ih
  | lock _ ih => exact .lock ih

/-- A program that follows two protocols asks what both of them permit. -/
theorem both {γ' : Type} {P' : Protocol γ'} {post' : γ' → α → Prop} {g' : γ'} {p : Program α}
    (h : Follows P post g p) (h' : Follows P' post' g' p) :
    Follows (P.and P') (fun known a => post known.1 a ∧ post' known.2 a) (g, g') p := by
  induction h generalizing g' with
  | done h =>
    cases h' with
    | done h' => exact .done ⟨h, h'⟩
  | @ask g r learn next hask _ ih =>
    cases h' with
    | @ask _ _ learn' _ hask' hnext' =>
      have hboth : P.and P' (g, g') r fun answer => (learn answer, learn' answer) :=
        ⟨hask, hask'⟩
      exact .ask hboth fun answer => ih answer (hnext' answer)
  | lock _ ih =>
    cases h' with
    | lock h' => exact .lock (ih h')

/-- A program in two parts follows the protocol if the second part does wherever the first may
end. -/
theorem bind {post : γ → β → Prop} {p : Program α} {f : α → Program β}
    (h : Follows P (fun g a => Follows P post g (f a)) g p) : Follows P post g (p.bind f) := by
  induction h with
  | done h => exact h
  | ask hask _ ih => exact .ask hask ih
  | lock _ ih => exact .lock ih

/-- The same for parts of an operation: the second part is left out after an error. -/
theorem bindCall {ε : Type} {m : γ → Except ε α → Prop} {post : γ → Except ε β → Prop}
    {p : ExceptT ε Program α} {f : α → ExceptT ε Program β} (hp : Follows P m g p.run)
    (herror : ∀ g e, m g (.error e) → post g (.error e))
    (hok : ∀ g a, m g (.ok a) → Follows P post g (f a).run) : Follows P post g (p >>= f).run := by
  refine bind (hp.mono fun g x hx => ?_)
  cases x with
  | ok a => exact hok g a hx
  | error e => exact .done (herror g e hx)

section Parts

variable {ε : Type}

theorem foldlM {m : γ → Except ε β → Prop} {p : β → α → ExceptT ε Program β} (as : List α)
    (hstep : ∀ g b, ∀ a ∈ as, m g (.ok b) → Follows P m g (p b a).run) {b : β}
    (hb : m g (.ok b)) : Follows P m g (as.foldlM p b).run := by
  induction as generalizing g b with
  | nil => exact .done hb
  | cons a as ih =>
    rw [List.foldlM_cons]
    exact bindCall (hstep g b a (List.mem_cons_self ..) hb) (fun _ _ h => h) fun g b hb =>
      ih (fun g b a ha => hstep g b a (List.mem_cons_of_mem _ ha)) hb

theorem forM {m : γ → Except ε Unit → Prop} {p : α → ExceptT ε Program Unit} (as : List α)
    (hstep : ∀ g, ∀ a ∈ as, m g (.ok ()) → Follows P m g (p a).run) (hg : m g (.ok ())) :
    Follows P m g (as.forM p).run := by
  induction as generalizing g with
  | nil => exact .done hg
  | cons a as ih =>
    rw [List.forM_eq_forM, List.forM_cons]
    exact bindCall (hstep g a (List.mem_cons_self ..) hg) (fun _ _ h => h) fun g _ hg =>
      ih (fun g a ha => hstep g a (List.mem_cons_of_mem _ ha)) hg

/-- The first part that finds something wrong is the last. -/
theorem allM {m : γ → Except ε Bool → Prop} {p : α → ExceptT ε Program Bool} (as : List α)
    (hstep : ∀ g, ∀ a ∈ as, m g (.ok true) → Follows P m g (p a).run)
    (hg : m g (.ok true)) : Follows P m g (as.allM p).run := by
  induction as generalizing g with
  | nil => exact .done hg
  | cons a as ih =>
    refine bindCall (hstep g a (List.mem_cons_self ..) hg) (fun _ _ h => h) fun g fine hfine => ?_
    cases fine with
    | true => exact ih (fun g a ha => hstep g a (List.mem_cons_of_mem _ ha)) hfine
    | false => exact .done hfine

end Parts

/-! ### Runs -/

/-- A run keeps what permitted requests keep. -/
theorem run {server : Server σ} {I : σ → γ → Prop} {p : Program α} (h : Follows P post g p)
    (hstep : ∀ s g r learn, I s g → P g r learn → I (server r s).2 (learn (server r s).1))
    {s : σ} (hI : I s g) :
    ∃ g', I (p.run server s).2 g' ∧ post g' (p.run server s).1 := by
  induction h generalizing s with
  | done h => exact ⟨_, hI, h⟩
  | ask hask _ ih => exact ih _ (hstep _ _ _ _ hI hask)
  | lock _ ih => exact ih hI

/-- A run asks only what may be asked while the invariant holds. -/
theorem requests {server : Server σ} {I : σ → γ → Prop} {allowed : Request → Prop}
    {p : Program α} (h : Follows P post g p)
    (hstep : ∀ s g r learn, I s g → P g r learn →
      allowed r ∧ I (server r s).2 (learn (server r s).1))
    {s : σ} (hI : I s g) : ∀ r ∈ p.requests server s, allowed r := by
  induction h generalizing s with
  | done => exact List.forall_mem_nil _
  | ask hask _ ih =>
    obtain ⟨hr, hI'⟩ := hstep _ _ _ _ hI hask
    exact List.forall_mem_cons.2 ⟨hr, ih _ hI'⟩
  | lock _ ih => exact ih hI

end Follows

end Program

namespace Traffic

open Program

variable {γ α : Type} {P : Nat → Protocol γ} {post : Nat → γ → α → Prop}
  {I : Cluster → List Event → (Nat → γ) → Prop} {fails : Option ApiFailure → Prop}

/-- Every program follows its protocol from what its caller knows. -/
def Follow (P : Nat → Protocol γ) (post : Nat → γ → α → Prop) (t : Traffic α) (known : Nat → γ) :
    Prop :=
  ∀ i p, t.callers[i]? = some p → Follows (P i) (post i) (known i) p.rest

/-- Permitted requests keep the invariant `I`, whether they are carried out or fail in one of the
ways considered. -/
def Keeps (P : Nat → Protocol γ) (fails : Option ApiFailure → Prop)
    (I : Cluster → List Event → (Nat → γ) → Prop) : Prop :=
  ∀ c events known i r learn failure, I c events known → P i (known i) r learn → fails failure →
    I (c.respondUnless failure r).2 (events ++ [⟨i, r, (c.respondUnless failure r).1, c⟩])
      (Function.update known i (learn (c.respondUnless failure r).1))

/-- When one caller goes on, each other is where it was. -/
theorem callers_set_cases {t : Traffic α} {i j : Nat} {p q : Caller α}
    (hp : (t.callers.set i q)[j]? = some p) : j = i ∧ p = q ∨ j ≠ i ∧ t.callers[j]? = some p := by
  rw [List.getElem?_set] at hp
  split at hp
  · next e =>
    split at hp
    · exact .inl ⟨e.symm, (Option.some.inj hp).symm⟩
    · cases hp
  · next e => exact .inr ⟨Ne.symm e, hp⟩

/-- One caller goes on, and only its own knowledge changes. -/
theorem Follow.set {t : Traffic α} {known known' : Nat → γ} (h : t.Follow P post known) {i : Nat}
    {q : Caller α} (hq : Follows (P i) (post i) (known' i) q.rest)
    (hknown : ∀ j, j ≠ i → known' j = known j) {j : Nat} {p : Caller α}
    (hp : (t.callers.set i q)[j]? = some p) : Follows (P j) (post j) (known' j) p.rest := by
  obtain ⟨rfl, rfl⟩ | ⟨hne, hp⟩ := callers_set_cases hp
  · exact hq
  · exact hknown j hne ▸ h j p hp

/-- A step keeps the invariant. -/
theorem step_follows (hkeeps : Keeps P fails I) {t : Traffic α} {known : Nat → γ}
    (hI : I t.cluster t.events known) (hfollow : t.Follow P post known) {turn : Turn}
    (hturn : fails turn.failure) :
    ∃ known', I (t.step turn).cluster (t.step turn).events known' ∧
      (t.step turn).Follow P post known' ∧ (∀ i, t.callers.length ≤ i → known' i = known i) ∧
      (t.step turn).callers.length = t.callers.length := by
  unfold step
  cases hp : t.callers[turn.caller]? with
  | none => exact ⟨known, hI, hfollow, fun _ _ => rfl, rfl⟩
  | some p =>
    have hf := hfollow _ _ hp
    simp only
    cases hrest : p.rest with
    | done a => exact ⟨known, hI, hfollow, fun _ _ => rfl, rfl⟩
    | lock space document next =>
      rw [hrest] at hf
      simp only
      split
      · exact ⟨known, hI, hfollow, fun _ _ => rfl, rfl⟩
      · cases hf with
        | lock hnext =>
          exact ⟨known, hI, fun i p' => hfollow.set hnext fun _ _ => rfl, fun _ _ => rfl,
            List.length_set ..⟩
    | ask r next =>
      rw [hrest] at hf
      cases hf with
      | @ask _ _ learn _ hask hnext =>
        refine ⟨Function.update known turn.caller (learn (t.cluster.respondUnless turn.failure r).1),
          hkeeps _ _ _ _ _ _ _ hI hask hturn, fun i p' => hfollow.set ?_ fun j hj =>
            Function.update_of_ne hj _ _, fun i hi => Function.update_of_ne ?_ _ _, List.length_set ..⟩
        · rw [Function.update_self]
          exact hnext _
        · have := (List.getElem?_eq_some_iff.1 hp).1
          omega

/-- A run keeps the invariant. -/
theorem run_follows (hkeeps : Keeps P fails I) {t : Traffic α} {known : Nat → γ}
    (hI : I t.cluster t.events known) (hfollow : t.Follow P post known) (turns : List Turn)
    (hturns : ∀ turn ∈ turns, fails turn.failure) :
    ∃ known', I (t.run turns).cluster (t.run turns).events known' ∧
      (t.run turns).Follow P post known' ∧ (∀ i, t.callers.length ≤ i → known' i = known i) ∧
      (t.run turns).callers.length = t.callers.length := by
  induction turns generalizing t known with
  | nil => exact ⟨known, hI, hfollow, fun _ _ => rfl, rfl⟩
  | cons turn turns ih =>
    obtain ⟨known₁, hI₁, hfollow₁, hout₁, hlen₁⟩ :=
      step_follows hkeeps hI hfollow (hturns turn (List.mem_cons_self ..))
    obtain ⟨known₂, hI₂, hfollow₂, hout₂, hlen₂⟩ :=
      ih hI₁ hfollow₁ fun u hu => hturns u (List.mem_cons_of_mem _ hu)
    refine ⟨known₂, hI₂, hfollow₂, fun i hi => ?_, hlen₂.trans hlen₁⟩
    rw [hout₂ i (hlen₁.symm ▸ hi), hout₁ i hi]

/-- A program that has ended has ended as stated. -/
theorem Follow.result {t : Traffic α} {known : Nat → γ} (h : t.Follow P post known) {i : Nat}
    {p : Caller α} {a : α} (hp : t.callers[i]? = some p) (ha : p.result? = some a) :
    post i (known i) a := by
  have hf := h i p hp
  unfold Caller.result? at ha
  split at ha
  · next hrest =>
    cases ha
    rw [hrest] at hf
    cases hf with
    | done hpost => exact hpost
  · cases ha

end Traffic

end CanaryRouting
