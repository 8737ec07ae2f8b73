import CanaryRouting.Proofs.Cluster.Stored
import CanaryRouting.Proofs.Router.Discovery
import CanaryRouting.Router.Traffic

/-!
# The names that an operation uses

An operation takes names from its configuration and from answers: routes may be found by selectors,
and what was read is stored under the name that it carries. So if the names in the configuration are
segments of a path (`Rollout.IsAddressed`), and the answers show such names (`Request.ShowsNames`),
then the names in all its requests are segments, too (`Naming.follows_perform`).
-/

namespace CanaryRouting

open Program Router

/-- The answer shows an object under the name that was asked for, or lists names that are segments
of a path. -/
def Request.ShowsNames : (r : Request) → r.Answer → Prop
  | .getRoute _ _ name, route => route.name = name
  | .listRoutes .., (names : List String) => ∀ name ∈ names, Path.IsSegment name
  | .getDocument _ name, document => document.name = name
  | .createDocument _ name, document => document.name = name
  | .updateDocument _ sent, document => document.name = sent.name
  | .updateRoute .., _ => True

/-- The names that a plan works with are segments of a path. -/
structure Plan.IsAddressed (p : Plan) : Prop where
  /-- The namespace. -/
  space : Path.IsSegment p.space
  /-- The registry document. -/
  document : Path.IsSegment p.document
  /-- The routes. -/
  targets : ∀ t ∈ p.targets, Path.IsSegment t.name

/-- The names in the configuration of the rollout, if it is accepted, are segments of a path. -/
def Rollout.IsAddressed (r : Rollout) : Prop :=
  ∀ s, Settings.ofJson r.trafficRouting = .ok s →
    Plan.IsAddressed ⟨s.namespaceOr r.space, s.documentName, s, s.targets⟩

namespace Naming

variable {α β : Type} {g : Prop} {m : α → Prop} {m' : β → Prop}

/-- As long as the answers show names as they should, requests use segments of a path. What is known
is whether they did so far. -/
def protocol : Protocol Prop := fun g r learn =>
  (g → r.IsAddressed) ∧ ∀ answer, learn answer = (g ∧ ∀ a, answer = .ok a → r.ShowsNames a)

/-- The result is as stated if the answers showed names as they should. -/
def Tells (m : α → Prop) (g : Prop) (x : Except RoutingError α) : Prop := g → ∀ a, x = .ok a → m a

/-! ### Parts -/

/-- If the answers showed names as they should, they did so before. -/
theorem since {p : Program α} {post : Prop → α → Prop} (h : Follows protocol post g p) :
    Follows protocol (fun g' a => (g' → g) ∧ post g' a) g p := by
  induction h with
  | done h => exact .done ⟨id, h⟩
  | @ask g r learn next hask _ ih =>
    refine .ask hask fun answer => (ih answer).mono fun g' a h => ⟨fun hg' => ?_, h.2⟩
    have hlearned := h.1 hg'
    rw [hask.2] at hlearned
    exact hlearned.1
  | lock _ ih => exact .lock ih

theorem follows_bind {p : Call α} {f : α → Call β} (hp : Follows protocol (Tells m) g p.run)
    (hf : ∀ g' a, (g' → g) → (g' → m a) → Follows protocol (Tells m') g' (f a).run) :
    Follows protocol (Tells m') g (p >>= f).run :=
  Follows.bindCall (since hp) (fun _ _ _ _ _ he => nomatch he) fun g' a h =>
    hf g' a h.1 fun hg' => h.2 hg' a rfl

theorem follows_ofExcept {x : Except RoutingError α} :
    Follows protocol (Tells (x = .ok ·)) g (Call.ofExcept x).run :=
  .done fun _ _ he => he

theorem follows_pure {a : α} (h : g → m a) :
    Follows protocol (Tells m) g (pure a : Call α).run :=
  .done fun hg _ he => by cases he; exact h hg

theorem follows_request {r : Request} (hr : g → r.IsAddressed) :
    Follows protocol (Tells r.ShowsNames) g (Call.ofStore (Store.perform r)).run := by
  rw [Call.run_ofStore_perform]
  refine .ask ⟨hr, fun _ => rfl⟩ fun answer => .done fun hg a he => ?_
  cases answer with
  | ok _ =>
    cases he
    exact hg.2 _ rfl
  | error failure => cases he

theorem follows_foldlM {p : β → α → Call β} (as : List α)
    (hstep : ∀ g' b, ∀ a ∈ as, (g' → g) → (g' → m' b) → Follows protocol (Tells m') g' (p b a).run)
    {b : β} (hb : g → m' b) : Follows protocol (Tells m') g (as.foldlM p b).run := by
  have hloop : Follows protocol (fun g' x => (g' → g) ∧ Tells m' g' x) g (as.foldlM p b).run := by
    refine Follows.foldlM as (fun g' b a ha hg' => ?_) ⟨id, fun hg _ he => by cases he; exact hb hg⟩
    exact (since (hstep g' b a ha hg'.1 fun h => hg'.2 h b rfl)).mono fun _ _ h =>
      ⟨hg'.1 ∘ h.1, h.2⟩
  exact hloop.mono fun _ _ h => h.2

/-! ### Plans -/

theorem follows_resolve {rollout : Rollout} (h : rollout.IsAddressed) :
    Follows protocol (Tells Plan.IsAddressed) g (resolve rollout).run := by
  unfold resolve
  refine follows_bind follows_ofExcept fun g₁ settings _ hsettings => ?_
  have hplan (h₁ : g₁) := h settings (Except.mapError_eq_ok.1 (hsettings h₁))
  refine follows_bind (m := fun targets => ∀ t ∈ targets, Path.IsSegment t.name)
    (follows_foldlM _ (fun g₂ targets kind _ hg₂ htargets => ?_) fun h₁ => (hplan h₁).targets)
    fun g₂ targets hg₂ htargets => follows_pure fun h₂ =>
      ⟨(hplan (hg₂ h₂)).space, (hplan (hg₂ h₂)).document, htargets h₂⟩
  unfold discover
  split
  · exact follows_pure htargets
  · next selector _ =>
    refine follows_bind (follows_request
      (r := .listRoutes (settings.namespaceOr rollout.space) kind selector) fun h₂ =>
        ⟨(hplan (hg₂ h₂)).space, Path.isSegment_empty⟩)
      fun g₃ names hg₃ hnames => follows_pure fun h₃ t ht => ?_
    rcases Target.mem_identity_addDiscovered.1 (List.mem_map_of_mem ht) with hold | ⟨-, hnew⟩
    · obtain ⟨t', ht', he⟩ := List.mem_map.1 hold
      have hname : t'.name = t.name := congrArg Prod.snd he
      exact hname ▸ htargets (hg₃ h₃) t' ht'
    · exact hnames h₃ _ hnew

/-! ### Operations -/

theorem follows_getDocument {space name : String} (hspace : g → Path.IsSegment space)
    (hname : g → Path.IsSegment name) :
    Follows protocol (Tells fun d? => ∀ d ∈ d?, d.name = name) g
      (Call.ofStore (Store.getDocument space name)).run := by
  refine .ask ⟨fun hg => ⟨hspace hg, hname hg⟩, fun _ => rfl⟩ fun answer => .done ?_
  rintro hg d? hd d ⟨⟩
  cases answer with
  | ok _ =>
    cases hd
    exact hg.2 _ rfl
  | error failure =>
    simp only [Except.mapError] at hd
    cases hf : StoreError.ofFailure (Request.getDocument space name).what failure <;>
      rw [hf] at hd <;> cases hd

section Targets

variable {rollout : Rollout} {plan : Plan} {document : Document} {t : Target}

theorem follows_getOrCreateDocument (hplan : g → plan.IsAddressed) :
    Follows protocol (Tells fun d => Path.IsSegment d.name) g (getOrCreateDocument plan).run := by
  unfold getOrCreateDocument
  refine follows_bind (follows_getDocument (fun h => (hplan h).space) fun h => (hplan h).document)
    fun g₁ d? hg₁ hd => ?_
  cases d? with
  | some d => exact follows_pure fun h => (hd h d rfl) ▸ (hplan (hg₁ h)).document
  | none =>
    have hcreate := follows_request (r := .createDocument plan.space plan.document) fun h =>
      ⟨(hplan (hg₁ h)).space, (hplan (hg₁ h)).document⟩
    refine (since hcreate).mono fun g₂ x hx h d hd => ?_
    have hname : d.name = plan.document := hx.2 h d hd
    have hsegment : Path.IsSegment d.name := hname ▸ (hplan (hg₁ (hx.1 h))).document
    exact hsegment

theorem follows_commit {key : String} {change : RouteChange} (hplan : g → plan.IsAddressed)
    (hbefore : g → Path.IsSegment change.before.name)
    (hafter : g → Path.IsSegment change.after.name) (hdocument : g → Path.IsSegment document.name) :
    Follows protocol (Tells fun d => Path.IsSegment d.name) g
      (commit plan document key change).run := by
  rw [run_commit]
  refine .ask ⟨fun h => ⟨(hplan h).space, hafter h⟩, fun _ => rfl⟩ fun answer => ?_
  cases answer with
  | error failure => exact .done fun _ _ he => nomatch he
  | ok stored =>
    refine .ask ⟨fun h => ⟨(hplan h.1).space, hdocument h.1⟩, fun _ => rfl⟩ fun answer => ?_
    cases answer with
    | ok written =>
      refine .done fun h _ he => ?_
      cases he
      have hname : written.name = document.name := h.2 written rfl
      exact hname ▸ hdocument h.1.1
    | error failure =>
      refine .ask ⟨fun h => ⟨(hplan h.1.1).space, hbefore h.1.1⟩, fun _ => rfl⟩ fun answer => ?_
      cases answer with
      | ok _ => exact .done fun _ _ he => nomatch he
      | error failure' => exact .done fun _ _ he => nomatch he

theorem follows_changeTarget {change : HeaderChange} (hplan : g → plan.IsAddressed)
    (ht : t ∈ plan.targets) (hdocument : g → Path.IsSegment document.name) :
    Follows protocol (Tells fun d => Path.IsSegment d.name) g
      (changeTarget rollout plan change document t).run := by
  unfold changeTarget
  refine follows_bind follows_ofExcept fun g₁ registry hg₁ _ => ?_
  refine follows_bind (follows_request (r := .getRoute plan.space t.kind t.name) fun h =>
    ⟨(hplan (hg₁ h)).space, (hplan (hg₁ h)).targets t ht⟩) fun g₂ route hg₂ hroute => ?_
  refine follows_bind follows_ofExcept fun g₃ routeChange? hg₃ hon => ?_
  have hpast (h : g₃) : g := hg₁ (hg₂ (hg₃ h))
  cases routeChange? with
  | none => exact follows_pure fun h => hdocument (hpast h)
  | some routeChange =>
    have hname (h : g₃) : route.name = t.name := hroute (hg₃ h)
    have hsegment (h : g₃) : Path.IsSegment route.name := hname h ▸ (hplan (hpast h)).targets t ht
    refine follows_commit (fun h => hplan (hpast h)) (fun h => ?_) (fun h => ?_)
      fun h => hdocument (hpast h)
    · obtain ⟨hbefore, -⟩ := proper_of_on (hon h) plan.space
      exact hbefore ▸ hsegment h
    · obtain ⟨hbefore, -, hproper⟩ := proper_of_on (hon h) plan.space
      obtain ⟨rules, hafter⟩ := hproper.after_eq
      rw [hafter, hbefore]
      exact hsegment h

theorem follows_setWeightOf {document? : Option Document} {desired : Int}
    {destinations : List WeightDestination} (hplan : g → plan.IsAddressed)
    (ht : t ∈ plan.targets) :
    Follows protocol (Tells fun _ => True) g
      (setWeightOf rollout plan document? desired destinations t).run := by
  unfold setWeightOf
  refine follows_bind (follows_request (r := .getRoute plan.space t.kind t.name) fun h =>
    ⟨(hplan h).space, (hplan h).targets t ht⟩) fun g₁ route hg₁ hroute => ?_
  refine follows_bind follows_ofExcept fun g₂ skip hg₂ _ => ?_
  refine follows_bind follows_ofExcept fun g₃ reweighed hg₃ hweigh => ?_
  have hpast (h : g₃) : g := hg₁ (hg₂ (hg₃ h))
  refine follows_bind (follows_request (r := .updateRoute plan.space reweighed) fun h =>
    ⟨(hplan (hpast h)).space, ?_⟩) fun _ _ _ _ => follows_pure fun _ => trivial
  have hname : route.name = t.name := hroute (hg₂ (hg₃ h))
  have hsame : reweighed.name = route.name := (sameShape_of_reweigh (hweigh h)).name
  rw [Request.name, hsame, hname]
  exact (hplan (hpast h)).targets t ht

theorem follows_verifyWeightOf {document? : Option Document} {desired : Int}
    {destinations : List WeightDestination} (hplan : g → plan.IsAddressed)
    (ht : t ∈ plan.targets) :
    Follows protocol (Tells fun _ => True) g
      (verifyWeightOf rollout plan document? desired destinations t).run := by
  unfold verifyWeightOf
  refine follows_bind (follows_request (r := .getRoute plan.space t.kind t.name) fun h =>
    ⟨(hplan h).space, (hplan h).targets t ht⟩) fun g₁ route hg₁ hroute => ?_
  exact follows_bind follows_ofExcept fun _ _ _ _ =>
    follows_ofExcept.mono fun _ _ _ _ _ _ => trivial

end Targets

/-- An operation about header routes uses names that are segments of a path. -/
theorem follows_headerChange {rollout : Rollout} {operation : Operation}
    {change? : Except RoutingError HeaderChange} (h : rollout.IsAddressed)
    (hop : operation.headerChange? rollout = some change?) :
    Follows protocol (Tells fun _ => True) g (perform rollout operation).run := by
  rw [perform_headerChange hop]
  refine follows_bind (follows_resolve h) fun g₁ plan _ hplan => ?_
  refine follows_bind follows_ofExcept fun g₂ change hg₂ _ => ?_
  unfold changeTargets
  refine follows_bind (m := fun _ => True) (follows_bind (m := fun _ => True)
    (.lock (follows_pure fun _ => trivial)) fun g₃ _ hg₃ _ => ?_)
    fun _ _ _ _ => follows_pure fun _ => trivial
  refine follows_bind (follows_getOrCreateDocument fun h₃ => hplan (hg₂ (hg₃ h₃)))
    fun g₄ document hg₄ hdocument => ?_
  refine follows_bind (m := fun d => Path.IsSegment d.name)
    (follows_foldlM _ (fun g₅ d t ht hg₅ hd => ?_) hdocument)
    fun _ _ _ _ => follows_pure fun _ => trivial
  exact follows_changeTarget (fun h₅ => hplan (hg₂ (hg₃ (hg₄ (hg₅ h₅)))))
    (List.mem_of_mem_filter ht) hd

/-- Operations about weights read the document, and then go through the targets. -/
theorem follows_withDocument {rollout : Rollout} (h : rollout.IsAddressed)
    (check : Except RoutingError Unit) {rest : Plan → Option Document → Call α}
    (hrest : ∀ g' plan document, (g' → plan.IsAddressed) →
      Follows protocol (Tells fun _ => True) g' (rest plan document).run) :
    Follows protocol (Tells fun _ => True) g
      (do Call.ofExcept check
          let plan ← resolve rollout
          let document ← Call.ofStore (Store.getDocument plan.space plan.document)
          rest plan document : Call α).run := by
  refine follows_bind follows_ofExcept fun g₁ _ _ _ => ?_
  refine follows_bind (follows_resolve h) fun g₂ plan _ hplan => ?_
  exact follows_bind
    (follows_getDocument (fun h₂ => (hplan h₂).space) fun h₂ => (hplan h₂).document)
    fun g₃ document hg₃ _ => hrest g₃ plan document fun h₃ => hplan (hg₃ h₃)

theorem follows_perform {o : Order} (h : o.rollout.IsAddressed) :
    Follows protocol (Tells fun _ => True) True o.program := by
  unfold Order.program
  cases hop : o.operation with
  | setHeaderRoute header =>
    exact follows_headerChange h (Operation.headerChange?_setHeaderRoute o.rollout header)
  | removeManagedRoutes => exact follows_headerChange h rfl
  | setWeight desired destinations =>
    have hweights : Follows protocol (Tells fun _ => True) True
        (setWeight o.rollout desired destinations).run :=
      follows_withDocument h _ fun g₁ plan document hplan =>
        (Follows.forM (m := fun g₂ _ => g₂ → g₁) plan.targets (fun g₂ t ht hg₂ =>
          (since (follows_setWeightOf (fun h₂ => hplan (hg₂ h₂)) ht)).mono fun _ _ hx =>
            hg₂ ∘ hx.1) id).mono fun _ _ _ _ _ _ => trivial
    exact follows_bind hweights fun _ _ _ _ => follows_pure fun _ => trivial
  | verifyWeight desired destinations =>
    have hweights : Follows protocol (Tells fun _ => True) True
        (verifyWeight o.rollout desired destinations).run :=
      follows_withDocument h _ fun g₁ plan document hplan =>
        (Follows.allM (m := fun g₂ _ => g₂ → g₁) plan.targets (fun g₂ t ht hg₂ =>
          (since (follows_verifyWeightOf (fun h₂ => hplan (hg₂ h₂)) ht)).mono fun _ _ hx =>
            hg₂ ∘ hx.1) id).mono fun _ _ _ _ _ _ => trivial
    exact follows_bind hweights fun _ _ _ _ => follows_pure fun _ => trivial
  | updateHash => exact follows_pure fun _ => trivial

end Naming

end CanaryRouting
