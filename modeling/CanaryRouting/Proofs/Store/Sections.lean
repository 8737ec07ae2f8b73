import CanaryRouting.Proofs.Store.Protocol

/-!
# Critical sections

Before an operation takes a lock it lists routes and nothing else (`Program.Lists`). From then on it
holds the lock, and takes no other one (`Program.Lockless`). An operation that does the one and then
the other has a critical section, to which it comes sooner or later if it does not fail before
(`Program.Approaches`).
-/

namespace CanaryRouting

namespace Program

variable {α β : Type}

/-- The program lists routes only, and ends with such a result. -/
inductive Lists (post : α → Prop) : Program α → Prop where
  /-- It ends. -/
  | done {a : α} : post a → Lists post (.done a)
  /-- It lists routes, and goes on likewise. -/
  | ask {space : String} {kind : RouteKind} {selector : LabelSelector}
    {next : Except ApiFailure (Request.listRoutes space kind selector).Answer → Program α} :
    (∀ answer, Lists post (next answer)) → Lists post (.ask (.listRoutes space kind selector) next)

/-- The program takes no lock. -/
inductive Lockless : Program α → Prop where
  /-- It ends. -/
  | done {a : α} : Lockless (.done a)
  /-- It asks a request, and goes on likewise. -/
  | ask {r : Request} {next : Except ApiFailure r.Answer → Program α} :
    (∀ answer, Lockless (next answer)) → Lockless (.ask r next)

/-- The program lists routes until it takes this lock, and takes no other one. -/
inductive Approaches (key : DocumentKey) : Program α → Prop where
  /-- It ends. -/
  | done {a : α} : Approaches key (.done a)
  /-- It lists routes, and goes on likewise. -/
  | ask {space : String} {kind : RouteKind} {selector : LabelSelector}
    {next : Except ApiFailure (Request.listRoutes space kind selector).Answer → Program α} :
    (∀ answer, Approaches key (next answer)) →
      Approaches key (.ask (.listRoutes space kind selector) next)
  /-- It takes the lock. -/
  | lock {next : Program α} : next.Lockless → Approaches key (.lock key.space key.name next)

namespace Lists

variable {post post' : α → Prop}

theorem mono {p : Program α} (h : Lists post p) (hpost : ∀ a, post a → post' a) :
    Lists post' p := by
  induction h with
  | done h => exact .done (hpost _ h)
  | ask _ ih => exact .ask ih

theorem bind {post : β → Prop} {p : Program α} {f : α → Program β}
    (h : Lists (fun a => Lists post (f a)) p) : Lists post (p.bind f) := by
  induction h with
  | done h => exact h
  | ask _ ih => exact .ask ih

/-- The same for parts of an operation: the second part is left out after an error. -/
theorem bindCall {m : Except RoutingError α → Prop} {post : Except RoutingError β → Prop}
    {p : Call α} {f : α → Call β} (hp : Lists m p.run)
    (herror : ∀ e, m (.error e) → post (.error e))
    (hok : ∀ a, m (.ok a) → Lists post (f a).run) : Lists post (p >>= f).run := by
  refine bind (hp.mono fun x hx => ?_)
  cases x with
  | ok a => exact hok a hx
  | error e => exact .done (herror e hx)

/-- A program that lists routes only follows a protocol by which lists are asked for at any time, and
keeps what they keep. -/
theorem follows {γ : Type} {P : Protocol γ} {m : γ → Prop} {p : Program α} (h : Lists post p)
    (hask : ∀ g space kind selector, m g →
      ∃ learn, P g (.listRoutes space kind selector) learn ∧ ∀ answer, m (learn answer))
    {g : γ} (hg : m g) : Follows P (fun g a => m g ∧ post a) g p := by
  induction h generalizing g with
  | done h => exact .done ⟨hg, h⟩
  | ask _ ih =>
    obtain ⟨learn, hlearn, hkeeps⟩ := hask g _ _ _ hg
    exact .ask hlearn fun answer => ih answer (hkeeps answer)

theorem approaches {key : DocumentKey} {p : Program α} {f : α → Program β}
    (h : Lists (fun a => (f a).Approaches key) p) : (p.bind f).Approaches key := by
  induction h with
  | done h => exact h
  | ask _ ih => exact .ask ih

end Lists

namespace Lockless

theorem bind {p : Program α} {f : α → Program β} (hp : p.Lockless) (hf : ∀ a, (f a).Lockless) :
    (p.bind f).Lockless := by
  induction hp with
  | done => exact hf _
  | ask _ ih => exact .ask ih

theorem bindCall {p : Call α} {f : α → Call β} (hp : p.run.Lockless)
    (hf : ∀ a, (f a).run.Lockless) : (p >>= f).run.Lockless := by
  refine bind hp fun x => ?_
  cases x with
  | ok a => exact hf a
  | error e => exact .done

theorem foldlM {p : β → α → Call β} (hp : ∀ b a, (p b a).run.Lockless) (as : List α) (b : β) :
    (as.foldlM p b).run.Lockless := by
  induction as generalizing b with
  | nil => exact .done
  | cons a as ih =>
    rw [List.foldlM_cons]
    exact bindCall (hp b a) ih

end Lockless

end Program

end CanaryRouting
