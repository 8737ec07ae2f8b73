import CanaryRouting.Proofs.Router.Runs
import CanaryRouting.Proofs.Store.Compensation
import CanaryRouting.Proofs.Updates.Accepted

/-!
# What undoing restores

A write that has been applied left its object with a version of its own, and undoing it carries
just this version. So undoing is not refused as long as nobody else writes: it fails only where the
request is made to fail, and otherwise what was stored before is stored again
(`Write.compensate_cases`). A transaction that has undone everything has left all routes as they
were, apart from their versions, and all documents, too, apart from their versions and from the way
in which the text under one key is written (`Transaction.runs_and_restores`). What the documents
record is the same.
-/

namespace CanaryRouting

/-! ### Objects -/

namespace Write

/-- The object that a write is about. -/
inductive Key where
  /-- A route. -/
  | route (key : RouteKey)
  /-- A document. -/
  | document (key : DocumentKey)
  deriving DecidableEq

/-- What is stored of an object. -/
inductive Object where
  /-- Of a route. -/
  | route (route : Route)
  /-- Of a document. -/
  | document (document : Document)
  deriving DecidableEq

/-- The name of an object. -/
def Key.name : Key → String
  | .route key => key.name
  | .document key => key.name

/-- The object with another version. -/
def Object.withVersion (version : Option String) : Object → Object
  | .route r => .route (r.withVersion version)
  | .document d => .document (d.withVersion version)

/-- The object carries the namespace and the name of the key. -/
def Object.IsAt : Object → Key → Prop
  | .route r, .route key => r.IsAt key
  | .document d, .document key => d.IsAt key
  | _, _ => False

/-- The object that the write replaces. -/
def key : Write → Key
  | .route w => .route ⟨w.after.kind, w.space, w.after.name⟩
  | .document w => .document ⟨w.space, w.forward.name⟩

/-- What undoing the write stores. -/
def image : Write → Object
  | .route w => .route w.before
  | .document w => .document w.backward

/-- What the write has stored. -/
def written? : Write → Option Object
  | .route w => w.written.map .route
  | .document w => w.written.map .document

end Write

/-- What is stored of an object. -/
def Cluster.object? (c : Cluster) : Write.Key → Option Write.Object
  | .route key => (c.routes.get? key).map .route
  | .document key => (c.documents.get? key).map .document

namespace Write

/-- The write is made from what is stored, and has not been applied. -/
inductive StartsFrom (c : Cluster) : Write → Prop where
  /-- It replaces a stored route. -/
  | route {space : String} {before after : Route} :
    c.routes.get? ⟨after.kind, space, after.name⟩ = some before →
    StartsFrom c (.route { space, before, after })
  /-- It replaces the managed routes under a key of a stored document. -/
  | document {space key : String} {d : Document} {before after : ManagedRoutes} :
    c.documents.get? ⟨space, d.name⟩ = some d → ManagedRoutes.load d key = .ok before →
    StartsFrom c (.document (.make space d key before after))

/-- The write has been applied, and nobody has replaced the object since. -/
structure IsApplied (c : Cluster) (w : Write) : Prop where
  /-- Undoing it is about the same object. -/
  returns : w.image.IsAt w.key
  /-- The object can be named in a request. -/
  named : w.key.name ≠ ""
  /-- What it has stored is what is stored. -/
  stored : ∃ o, w.written? = some o ∧ c.object? w.key = some o

variable {c c' : Cluster} {s : FaultyCluster} {w : Write}

theorem StartsFrom.returns (hc : c.WellFormed) (h : w.StartsFrom c) : w.image.IsAt w.key := by
  cases h with
  | route hr => exact hc.route_isAt hr
  | document hd _ => exact ⟨(hc.document_isAt hd).space, rfl⟩

theorem IsApplied.congr (h : w.IsApplied c) (heq : c'.object? w.key = c.object? w.key) :
    w.IsApplied c' :=
  ⟨h.returns, h.named, heq ▸ h.stored⟩

/-! ### One request -/

/-- Only one object of the cluster has been replaced. -/
def OnlyAt (key : Key) (c c' : Cluster) : Prop :=
  ∀ key', key' ≠ key → c'.object? key' = c.object? key'

theorem onlyAt_insertRoute (key : RouteKey) (r : Route) (n : Nat) :
    OnlyAt (.route key) c { c with routes := c.routes.insert key r, versions := n } := by
  rintro (key' | key') hne
  · exact congrArg (Option.map Object.route) ((KeyMap.get?_insert ..).trans
      (if_neg fun e => hne (congrArg Key.route e.symm)))
  · rfl

theorem onlyAt_insertDocument (key : DocumentKey) (d : Document) (n : Nat) :
    OnlyAt (.document key) c { c with documents := c.documents.insert key d, versions := n } := by
  rintro (key' | key') hne
  · rfl
  · exact congrArg (Option.map Object.document) ((KeyMap.get?_insert ..).trans
      (if_neg fun e => hne (congrArg Key.document e.symm)))

/-- A request fails, or it is accepted under the name it has. -/
theorem respond_named_cases {r : Request} (hpath : r.hasNameInPath = true) (s : FaultyCluster) :
    (∃ e, FaultyCluster.respond r s = (.error e, ⟨s.cluster, s.failures.tail⟩)) ∨
      ∃ a c', FaultyCluster.respond r s = (.ok a, ⟨c', s.failures.tail⟩) ∧
        Cluster.Acceptance s.cluster r a c' ∧ r.name ≠ "" := by
  rcases s.respond_cases r with ⟨e, he, -⟩ | he
  · exact .inl ⟨e, he⟩
  rcases Cluster.respond_cases r s.cluster with ⟨e, he'⟩ | ⟨a, c', he', haccepted⟩ <;>
    rw [he'] at he
  · exact .inl ⟨e, he⟩
  · refine .inr ⟨a, c', he, haccepted, fun e => ?_⟩
    rw [Cluster.respond_unnamed (by simp [Request.isNamed, hpath, e])] at he'
    cases he'

/-- Applying a write fails and changes nothing, or it replaces the object of the write. -/
theorem apply_cases (hreturns : w.image.IsAt w.key) (s : FaultyCluster) :
    (∃ e, w.apply.run FaultyCluster.respond s = (.error e, ⟨s.cluster, s.failures.tail⟩)) ∨
      ∃ w' c', w.apply.run FaultyCluster.respond s = (.ok w', ⟨c', s.failures.tail⟩) ∧
        w'.key = w.key ∧ w'.image = w.image ∧ w'.IsApplied c' ∧ OnlyAt w.key s.cluster c' := by
  cases w with
  | route w =>
    have hrun : (Write.apply (.route w)).run FaultyCluster.respond s =
        ((((FaultyCluster.respond (.updateRoute w.space w.after) s).1.mapError
            (StoreError.ofFailure (Request.updateRoute w.space w.after).what)).map
          fun stored => { w with written := some stored }).map .route,
          (FaultyCluster.respond (.updateRoute w.space w.after) s).2) := rfl
    rcases respond_named_cases (r := .updateRoute w.space w.after) rfl s with
      ⟨e, he⟩ | ⟨stored, c', he, haccepted, hnamed⟩ <;> rw [hrun, he]
    · exact .inl ⟨_, rfl⟩
    · cases haccepted with
      | updateRoute _ _ _ =>
        refine .inr ⟨_, _, rfl, rfl, rfl, ⟨hreturns, hnamed, _, rfl, ?_⟩,
          onlyAt_insertRoute _ _ _⟩
        exact congrArg (Option.map Object.route) (KeyMap.get?_insert_self ..)
  | document w =>
    have hrun : (Write.apply (.document w)).run FaultyCluster.respond s =
        ((((FaultyCluster.respond (.updateDocument w.space w.forward) s).1.mapError
            (StoreError.ofFailure (Request.updateDocument w.space w.forward).what)).map
          fun stored => { w with written := some stored }).map .document,
          (FaultyCluster.respond (.updateDocument w.space w.forward) s).2) := rfl
    rcases respond_named_cases (r := .updateDocument w.space w.forward) rfl s with
      ⟨e, he⟩ | ⟨stored, c', he, haccepted, hnamed⟩ <;> rw [hrun, he]
    · exact .inl ⟨_, rfl⟩
    · cases haccepted with
      | updateDocument _ _ _ =>
        refine .inr ⟨_, _, rfl, rfl, rfl, ⟨hreturns, hnamed, _, rfl, ?_⟩,
          onlyAt_insertDocument _ _ _⟩
        exact congrArg (Option.map Object.document) (KeyMap.get?_insert_self ..)

/-- A write that fails changes nothing. -/
theorem eq_of_apply_error (hreturns : w.image.IsAt w.key) {s s' : FaultyCluster} {e : StoreError}
    (h : w.apply.run FaultyCluster.respond s = (.error e, s')) :
    s' = ⟨s.cluster, s.failures.tail⟩ := by
  rcases apply_cases hreturns s with ⟨e', he⟩ | ⟨_, _, he, -⟩ <;> rw [h] at he <;> cases he
  rfl

/-- A request that the server would accept fails just if it is made to. -/
theorem respond_accepted_cases {r : Request} {a : r.Answer}
    (h : Cluster.respond r s.cluster = (.ok a, c')) :
    (s.failure? ≠ none ∧
      ∃ e, FaultyCluster.respond r s = (.error e, ⟨s.cluster, s.failures.tail⟩)) ∨
      (s.failure? = none ∧ FaultyCluster.respond r s = (.ok a, ⟨c', s.failures.tail⟩)) := by
  rw [FaultyCluster.respond]
  cases s.failure? with
  | some e => exact .inl ⟨Option.some_ne_none _, e, rfl⟩
  | none =>
    rw [Cluster.respondUnless, h]
    exact .inr ⟨rfl, rfl⟩

/-- Undoing a write that has been applied fails if the request is made to fail, and then changes
nothing. Otherwise it stores what was stored before. -/
theorem compensate_cases (h : w.IsApplied s.cluster) :
    (s.failure? ≠ none ∧ ∃ e,
      w.compensate.run FaultyCluster.respond s = (.error e, ⟨s.cluster, s.failures.tail⟩)) ∨
      (s.failure? = none ∧ ∃ w' c',
        w.compensate.run FaultyCluster.respond s = (.ok w', ⟨c', s.failures.tail⟩) ∧
          (∃ v, c'.object? w.key = some (w.image.withVersion v)) ∧ OnlyAt w.key s.cluster c') := by
  obtain ⟨hreturns, hnamed, o, hwritten, hstored⟩ := h
  cases w with
  | route w =>
    obtain ⟨stored, hw, rfl⟩ := Option.map_eq_some_iff.1 hwritten
    obtain ⟨x, hx, hxo⟩ := Option.map_eq_some_iff.1 hstored
    cases hxo
    have hrun : (Write.compensate (.route w)).run FaultyCluster.respond s =
        ((((FaultyCluster.respond (.updateRoute w.space w.revert) s).1.mapError
            (StoreError.ofFailure (Request.updateRoute w.space w.revert).what)).map
          fun _ => { w with written := none }).map .route,
          (FaultyCluster.respond (.updateRoute w.space w.revert) s).2) := rfl
    have hrevert : w.revert = w.before.withVersion stored.version := by
      rw [RouteWrite.revert, hw]
      rfl
    have hat : (w.before.withVersion stored.version).IsAt ⟨w.after.kind, w.space, w.after.name⟩ :=
      Route.IsAt.withVersion hreturns _
    rcases respond_accepted_cases (Cluster.respond_updateRoute hat hnamed hx rfl) with
      ⟨hfailure, e, he⟩ | ⟨hfailure, he⟩ <;> rw [hrun, hrevert, he]
    · exact .inl ⟨hfailure, _, rfl⟩
    · exact .inr ⟨hfailure, _, _, rfl, ⟨_, congrArg (Option.map Object.route)
        (Cluster.get?_putRoute_self _ _)⟩, onlyAt_insertRoute _ _ _⟩
  | document w =>
    obtain ⟨stored, hw, rfl⟩ := Option.map_eq_some_iff.1 hwritten
    obtain ⟨x, hx, hxo⟩ := Option.map_eq_some_iff.1 hstored
    cases hxo
    have hrun : (Write.compensate (.document w)).run FaultyCluster.respond s =
        ((((FaultyCluster.respond (.updateDocument w.space w.revert) s).1.mapError
            (StoreError.ofFailure (Request.updateDocument w.space w.revert).what)).map
          fun _ => { w with written := none }).map .document,
          (FaultyCluster.respond (.updateDocument w.space w.revert) s).2) := rfl
    have hrevert : w.revert = w.backward.withVersion stored.version := by
      rw [DocumentWrite.revert, hw]
      rfl
    have hat : (w.backward.withVersion stored.version).IsAt ⟨w.space, w.forward.name⟩ :=
      Document.IsAt.withVersion hreturns _
    rcases respond_accepted_cases (Cluster.respond_updateDocument hat hnamed hx rfl) with
      ⟨hfailure, e, he⟩ | ⟨hfailure, he⟩ <;> rw [hrun, hrevert, he]
    · exact .inl ⟨hfailure, _, rfl⟩
    · exact .inr ⟨hfailure, _, _, rfl, ⟨_, congrArg (Option.map Object.document)
        (Cluster.get?_putDocument_self _ _)⟩, onlyAt_insertDocument _ _ _⟩

/-! ### Many writes -/

open Transaction

/-- Writes to different objects have been applied, in order, to a cluster. -/
structure AppliedAll (ws applied : List Write) (c c' : Cluster) : Prop where
  /-- They are the same writes. -/
  images : ∀ w' ∈ applied, ∃ w ∈ ws, w.key = w'.key ∧ w.image = w'.image
  /-- Their objects are the same, in the same order. -/
  keys : applied.map key = ws.map key
  /-- What they have stored is there. -/
  isApplied : ∀ w' ∈ applied, w'.IsApplied c'
  /-- All other objects are as they were. -/
  others : ∀ k, k ∉ ws.map key → c'.object? k = c.object? k

theorem AppliedAll.cons {w w' : Write} {ws applied : List Write} {c c₁ c' : Cluster}
    (hkeys : w.key ∉ ws.map key) (hkey : w'.key = w.key) (himage : w'.image = w.image)
    (happlied : w'.IsApplied c₁) (honly : OnlyAt w.key c c₁) (h : AppliedAll ws applied c₁ c') :
    AppliedAll (w :: ws) (w' :: applied) c c' where
  images := List.forall_mem_cons.2 ⟨⟨w, List.mem_cons_self, hkey.symm, himage.symm⟩, fun x hx =>
    let ⟨y, hy, hxy⟩ := h.images x hx
    ⟨y, List.mem_cons_of_mem _ hy, hxy⟩⟩
  keys := by rw [List.map_cons, List.map_cons, hkey, h.keys]
  isApplied := List.forall_mem_cons.2 ⟨happlied.congr (hkey ▸ h.others _ hkeys), h.isApplied⟩
  others k hk := by
    rw [List.map_cons, List.mem_cons, not_or] at hk
    rw [h.others k hk.2, honly k hk.1]

theorem appliedAll_of_run {ws applied : List Write} {s s' : FaultyCluster}
    (hreturns : ∀ w ∈ ws, w.image.IsAt w.key) (hkeys : (ws.map key).Nodup)
    (h : (Execution.ofServer FaultyCluster.respond).run (makeAll Program (ws.map .apply)) s =
      (applied.map .ok, s')) :
    AppliedAll ws applied s.cluster s'.cluster ∧ s'.failures = s.failures.drop ws.length := by
  induction ws generalizing s applied with
  | nil =>
    rw [List.map_nil, run_makeAll_nil] at h
    obtain ⟨houtcomes, rfl⟩ := Prod.mk.inj h
    rw [List.map_eq_nil_iff.1 houtcomes.symm]
    exact ⟨⟨List.forall_mem_nil _, rfl, List.forall_mem_nil _, fun _ _ => rfl⟩, rfl⟩
  | cons w ws ih =>
    rw [List.forall_mem_cons] at hreturns
    rw [List.map_cons, List.nodup_cons] at hkeys
    rw [List.map_cons, run_makeAll_cons] at h
    obtain ⟨houtcomes, hstate⟩ := Prod.mk.inj h
    obtain ⟨w', applied, rfl, hw', happlied⟩ := List.map_eq_cons_iff.1 houtcomes.symm
    have hfirst : (Execution.ofServer FaultyCluster.respond).run
        (StepCall.make Program (.apply w)) s = w.apply.run FaultyCluster.respond s := rfl
    rw [hfirst] at hw' happlied hstate
    rcases apply_cases hreturns.1 s with ⟨e, he⟩ | ⟨w₁, c₁, he, hkey, himage, hw₁, honly⟩ <;>
      rw [he] at hw' happlied hstate <;> cases hw'
    obtain ⟨hrest, hfailures⟩ := ih hreturns.2 hkeys.2 (Prod.ext happlied.symm hstate)
    refine ⟨hrest.cons hkeys.1 hkey himage hw₁ honly, ?_⟩
    rw [hfailures, List.length_cons, List.drop_tail]

/-- Writes have been undone, with these outcomes. -/
structure UndoneAll (ws : List Write) (outcomes : List (Except StoreError Write))
    (s s' : FaultyCluster) : Prop where
  /-- There was one request for each. -/
  failures : s'.failures = s.failures.drop ws.length
  /-- Undoing succeeds where the request is not made to fail. -/
  isOk_iff : (∀ outcome ∈ outcomes, outcome.isOk = true) ↔
    ∀ failure ∈ s.failures.take ws.length, failure = none
  /-- If all of them were undone, what was stored before is stored again. -/
  restored : (∀ outcome ∈ outcomes, outcome.isOk = true) →
    ∀ w ∈ ws, ∃ v, s'.cluster.object? w.key = some (w.image.withVersion v)
  /-- All other objects are as they were. -/
  others : ∀ k, k ∉ ws.map key → s'.cluster.object? k = s.cluster.object? k

theorem forall_mem_take_succ (n : Nat) (s : FaultyCluster) :
    (∀ failure ∈ s.failures.take (n + 1), failure = none) ↔
      s.failure? = none ∧ ∀ failure ∈ s.failures.tail.take n, failure = none := by
  rw [FaultyCluster.failure?]
  cases s.failures <;> simp

theorem UndoneAll.cons {w : Write} {ws : List Write} {outcome : Except StoreError Write}
    {outcomes : List (Except StoreError Write)} {s s' : FaultyCluster} {c₁ : Cluster}
    (hkeys : w.key ∉ ws.map key) (hisOk : outcome.isOk = true ↔ s.failure? = none)
    (hrestored : outcome.isOk = true → ∃ v, c₁.object? w.key = some (w.image.withVersion v))
    (honly : OnlyAt w.key s.cluster c₁)
    (h : UndoneAll ws outcomes ⟨c₁, s.failures.tail⟩ s') :
    UndoneAll (w :: ws) (outcome :: outcomes) s s' where
  failures := by rw [h.failures, List.length_cons, List.drop_tail]
  isOk_iff := by
    rw [List.forall_mem_cons, hisOk, h.isOk_iff, List.length_cons, forall_mem_take_succ]
  restored hall := by
    rw [List.forall_mem_cons] at hall
    obtain ⟨v, hv⟩ := hrestored hall.1
    exact List.forall_mem_cons.2 ⟨⟨v, (h.others _ hkeys).trans hv⟩, h.restored hall.2⟩
  others k hk := by
    rw [List.map_cons, List.mem_cons, not_or] at hk
    rw [h.others k hk.2, honly k hk.1]

theorem undoneAll_of_isApplied {ws : List Write} {s : FaultyCluster}
    (happlied : ∀ w ∈ ws, w.IsApplied s.cluster) (hkeys : (ws.map key).Nodup) :
    UndoneAll ws
      ((Execution.ofServer FaultyCluster.respond).run
        (makeAll Program (ws.map .compensate)) s).1 s
      ((Execution.ofServer FaultyCluster.respond).run
        (makeAll Program (ws.map .compensate)) s).2 := by
  induction ws generalizing s with
  | nil =>
    rw [List.map_nil, run_makeAll_nil]
    exact ⟨rfl, by simp, fun _ => List.forall_mem_nil _, fun _ _ => rfl⟩
  | cons w ws ih =>
    rw [List.forall_mem_cons] at happlied
    rw [List.map_cons, List.nodup_cons] at hkeys
    have hfirst : (Execution.ofServer FaultyCluster.respond).run
        (StepCall.make Program (.compensate w)) s = w.compensate.run FaultyCluster.respond s := rfl
    -- whatever undoing the first one leaves, the others are still as they were applied
    have hlater : ∀ c₁, OnlyAt w.key s.cluster c₁ → ∀ x ∈ ws, x.IsApplied c₁ :=
      fun c₁ honly x hx => (happlied.2 x hx).congr (honly _ fun e =>
        hkeys.1 (e ▸ List.mem_map_of_mem hx))
    rw [List.map_cons, run_makeAll_cons, hfirst]
    rcases compensate_cases happlied.1 with
      ⟨hfailure, e, he⟩ | ⟨hfailure, w', c', he, hstored, honly⟩ <;> rw [he]
    · have honly : OnlyAt w.key s.cluster s.cluster := fun _ _ => rfl
      exact UndoneAll.cons hkeys.1 (iff_of_false nofun hfailure) nofun honly
        (ih (hlater _ honly) hkeys.2)
    · exact UndoneAll.cons hkeys.1 (iff_of_true rfl hfailure) (fun _ => hstored) honly
        (ih (hlater _ honly) hkeys.2)

end Write

namespace Transaction

open Write

/-! ### Transactions that fail -/

/-- The writes before the one that failed have been undone, as far as the requests for that were
not made to fail. If they were not, each object is as before or what undoing one of the writes
stores. -/
theorem undone_of_runs {writes : List Write} {s s' : FaultyCluster} {failure : TransactionFailure}
    (hreturns : ∀ w ∈ writes, w.image.IsAt w.key) (hkeys : (writes.map Write.key).Nodup)
    (h : Runs (Execution.ofServer FaultyCluster.respond) writes s (.error failure) s') :
    ∃ before step after, writes = before ++ step :: after ∧ failure.step = step.describe ∧
      (failure.isConsistent = true ↔
        ∀ x ∈ (s.failures.drop (before.length + 1)).take before.length, x = none) ∧
      (failure.isConsistent = true → ∀ k, s'.cluster.object? k = s.cluster.object? k ∨
        ∃ w ∈ writes, w.key = k ∧ ∃ v, s'.cluster.object? k = some (w.image.withVersion v)) := by
  cases h with
  | @abandoned before after applied step undone failure s' hsteps hlength hcalls hdescribe _
      hconsistent =>
    subst hsteps
    rw [List.map_append, List.map_cons, List.nodup_append] at hkeys
    obtain ⟨s₁, s₂, hbefore, hstep, hundone⟩ :=
      split_of_makeAll _ (by rw [List.length_map, List.length_map, hlength]) hcalls
    obtain ⟨happlied, hfailures⟩ := appliedAll_of_run
      (fun w hw => hreturns w (List.mem_append_left _ hw)) hkeys.1 hbefore
    obtain rfl := eq_of_apply_error (hreturns step (by simp)) hstep
    -- the failed write has changed nothing, so those before it are still as they were applied
    have hkeys' : (applied.reverse.map Write.key).Nodup := by
      rw [List.map_reverse, (List.reverse_perm _).nodup_iff, happlied.keys]
      exact hkeys.1
    have hundo := undoneAll_of_isApplied (s := ⟨s₁.cluster, s₁.failures.tail⟩)
      (fun w hw => happlied.isApplied w (List.mem_reverse.1 hw)) hkeys'
    rw [hundone] at hundo
    refine ⟨before, step, after, rfl, hdescribe, ?_, fun hyes k => ?_⟩
    · rw [hconsistent, hundo.isOk_iff, List.length_reverse, hlength, hfailures, List.tail_drop]
    · by_cases hk : k ∈ before.map Write.key
      · rw [← happlied.keys, List.mem_map] at hk
        obtain ⟨w', hw', rfl⟩ := hk
        obtain ⟨v, hv⟩ := hundo.restored (hconsistent.1 hyes) w' (List.mem_reverse.2 hw')
        obtain ⟨w, hw, hkey, himage⟩ := happlied.images w' hw'
        exact .inr ⟨w, List.mem_append_left _ hw, hkey, v, himage ▸ hv⟩
      · have hk' : k ∉ applied.reverse.map Write.key := by
          rwa [List.map_reverse, List.mem_reverse, happlied.keys]
        exact .inl ((hundo.others k hk').trans (happlied.others k hk))

/-- The cluster is as it was before, but for the versions of objects and for the texts of
unchanged managed routes in the documents that some of the writes are about. -/
structure Restored (writes : List Write) (c c' : Cluster) : Prop where
  /-- Each route is as it was, apart from its version. -/
  routes : ∀ key, (c'.routes.get? key).map Route.unversioned =
    (c.routes.get? key).map Route.unversioned
  /-- Each document is as it was, apart from its version; or the managed routes that it had under
  the key of a write have been stored there again. -/
  documents : ∀ key, (c'.documents.get? key).map (·.withVersion none) =
      (c.documents.get? key).map (·.withVersion none) ∨
    ∃ d textKey before after version,
      Write.document (.make key.space d textKey before after) ∈ writes ∧
        c.documents.get? key = some d ∧ ManagedRoutes.load d textKey = .ok before ∧
        c'.documents.get? key = some ((before.store d textKey).withVersion version)
  /-- Each document that was there is there and says the same under every key. -/
  texts : ∀ key textKey, (c'.documents.get? key).map (ManagedRoutes.load · textKey) =
    (c.documents.get? key).map (ManagedRoutes.load · textKey)

theorem get?_of_routeObject {c c' : Cluster} {key : RouteKey}
    (h : c'.object? (.route key) = c.object? (.route key)) :
    c'.routes.get? key = c.routes.get? key :=
  Option.map_injective (fun _ _ => Object.route.inj) h

theorem get?_of_documentObject {c c' : Cluster} {key : DocumentKey}
    (h : c'.object? (.document key) = c.object? (.document key)) :
    c'.documents.get? key = c.documents.get? key :=
  Option.map_injective (fun _ _ => Object.document.inj) h

/-- What undoing a write of a route stores is the route, apart from its version. -/
theorem restored_of_routeWrite {c c' : Cluster} {w : Write} {key : RouteKey} {v : Option String}
    (hstarts : w.StartsFrom c) (hkey : w.key = .route key)
    (h : c'.object? (.route key) = some (w.image.withVersion v)) :
    ∃ r, c.routes.get? key = some r ∧ c'.routes.get? key = some (r.withVersion v) := by
  cases hstarts with
  | document _ _ => cases hkey
  | @route space before after hr =>
    cases hkey
    obtain ⟨r, hr', hrv⟩ := Option.map_eq_some_iff.1 h
    cases hrv
    exact ⟨before, hr, hr'⟩

/-- What undoing a write of a document stores is the document with the same managed routes, apart
from its version. -/
theorem restored_of_documentWrite {c c' : Cluster} {w : Write} {key : DocumentKey}
    {v : Option String} (hstarts : w.StartsFrom c) (hkey : w.key = .document key)
    (h : c'.object? (.document key) = some (w.image.withVersion v)) :
    ∃ d textKey before after, w = .document (.make key.space d textKey before after) ∧
      c.documents.get? key = some d ∧ ManagedRoutes.load d textKey = .ok before ∧
      c'.documents.get? key = some ((before.store d textKey).withVersion v) := by
  cases hstarts with
  | route _ => cases hkey
  | @document space textKey d before after hd hload =>
    cases hkey
    obtain ⟨d', hd', hdv⟩ := Option.map_eq_some_iff.1 h
    cases hdv
    exact ⟨d, textKey, before, after, rfl, hd, hload, hd'⟩

theorem restored_of_objects {writes : List Write} {c c' : Cluster}
    (hstarts : ∀ w ∈ writes, w.StartsFrom c)
    (h : ∀ k, c'.object? k = c.object? k ∨
      ∃ w ∈ writes, w.key = k ∧ ∃ v, c'.object? k = some (w.image.withVersion v)) :
    Restored writes c c' where
  routes key := by
    rcases h (.route key) with heq | ⟨w, hw, hkey, v, hv⟩
    · rw [get?_of_routeObject heq]
    · obtain ⟨r, hr, hr'⟩ := restored_of_routeWrite (hstarts w hw) hkey hv
      rw [hr, hr']
      rfl
  documents key := by
    rcases h (.document key) with heq | ⟨w, hw, hkey, v, hv⟩
    · exact .inl (by rw [get?_of_documentObject heq])
    · obtain ⟨d, textKey, before, after, rfl, hd⟩ :=
        restored_of_documentWrite (hstarts w hw) hkey hv
      exact .inr ⟨d, textKey, before, after, v, hw, hd⟩
  texts key textKey := by
    rcases h (.document key) with heq | ⟨w, hw, hkey, v, hv⟩
    · rw [get?_of_documentObject heq]
    · obtain ⟨d, textKey', before, after, -, hd, hload, hd'⟩ :=
        restored_of_documentWrite (hstarts w hw) hkey hv
      rw [hd, hd', Option.map_some, Option.map_some, Cluster.load_withVersion,
        ManagedRoutes.load_store_load hload]

/-- **What a transaction does, and what is left when it fails.** For any steps, however their calls
end, a transaction applies the steps in order up to the first that fails, undoes those before it in
the opposite order, each once, and does nothing else; the failure tells of that step and of exactly
those that could not be undone (`Runs`).

So let the steps be writes to different objects, each made from what is stored, on a server that
nobody else writes to, where some of the requests are made to fail and then store nothing. If the
transaction fails, everything that it had written has been undone exactly if none of the requests
for that is made to fail, and then all is as before, apart from versions and the way in which the
managed routes under the keys of the writes are written. -/
theorem runs_and_restores :
    (∀ {m : Type → Type} [Monad m] {σ S : Type} [Reversible m σ] (E : Execution m S)
      (steps : List σ) (s : S),
      Runs E steps s (E.run (run (m := m) steps) s).1 (E.run (run (m := m) steps) s).2) ∧
    ∀ {writes : List Write} {s s' : FaultyCluster} {failure : TransactionFailure},
      s.cluster.WellFormed → (∀ w ∈ writes, w.StartsFrom s.cluster) →
      (writes.map Write.key).Nodup →
      Program.run FaultyCluster.respond (run writes) s = (.error failure, s') →
      ∃ before step after, writes = before ++ step :: after ∧ failure.step = step.describe ∧
        (failure.isConsistent = true ↔
          ∀ x ∈ (s.failures.drop (before.length + 1)).take before.length, x = none) ∧
        (failure.isConsistent = true → Restored writes s.cluster s'.cluster) := by
  refine ⟨fun E steps s => runs_run E steps s, ?_⟩
  intro writes s s' failure hc hstarts hkeys hrun
  have hruns := runs_run (Execution.ofServer FaultyCluster.respond) writes s
  change Runs _ _ _ (Program.run FaultyCluster.respond (run writes) s).1
    (Program.run FaultyCluster.respond (run writes) s).2 at hruns
  rw [hrun] at hruns
  obtain ⟨before, step, after, hsteps, hdescribe, hconsistent, hobjects⟩ :=
    undone_of_runs (fun w hw => (hstarts w hw).returns hc) hkeys hruns
  exact ⟨before, step, after, hsteps, hdescribe, hconsistent,
    fun hyes => restored_of_objects hstarts (hobjects hyes)⟩

/-! ### Two transactions

In the first, of rehearsed steps, one of the steps that are to be undone cannot be undone. In the
second a route is changed and the change recorded, in a document that writes its managed routes
with a blank, and then the update of another route fails.
-/

/-- Three rehearsed steps. -/
def threeSteps : List RehearsedStep := [
  { name := "a", compensateError := some (.failed "a") },
  { name := "b" },
  { name := "c", applyError := some (.conflict "c") }]

/-- A document that records one rule. -/
def blankDocument : Document where
  metadata := { name := some shopDocument.name, space := some shopDocument.space }
  data := some (KeyMap.ofList
    [(RouteKind.http.registryKey, " \x7b\"beta\":\x7b\"web\":1\x7d\x7d")])

/-- What it records. -/
def blankRecord : ManagedRoutes := ⟨KeyMap.ofList [("beta", KeyMap.ofList [("web", 1)])]⟩

/-- A second route. -/
def apiRoute : Route := { webRoute with metadata := { webRoute.metadata with name := some "api" } }

/-- A cluster with both routes and the document, and which of the requests fail. -/
def twoRoutes : FaultyCluster where
  cluster := (shopCluster.putRoute ⟨.http, "shop", "api"⟩ apiRoute).putDocument shopDocument
    blankDocument
  failures := [none, none, some (.status 500)]

/-- Three writes: of the first route, of the document, of the second route. -/
def threeWrites : List Write := [
  .route {
    space := "shop"
    before := webRoute.withVersion (some "v1")
    after := (webRoute.withVersion (some "v1")).withRules [] },
  .document (.make "shop" (blankDocument.withVersion (some "v3")) RouteKind.http.registryKey
    blankRecord .empty),
  .route {
    space := "shop"
    before := apiRoute.withVersion (some "v2")
    after := (apiRoute.withVersion (some "v2")).withRules [] }]

theorem runs_and_restores_threeWrites :
    Runs (Execution.stateful (List String)) threeSteps []
      (.error ⟨"c", .conflict "c", [⟨"a", .failed "a"⟩]⟩)
      ["apply a", "apply b", "apply c", "compensate b", "compensate a"] ∧
    ∃ failure s', Program.run FaultyCluster.respond (run threeWrites) twoRoutes =
        (.error failure, s') ∧ failure.isConsistent = true ∧
      s'.cluster ≠ twoRoutes.cluster ∧ Restored threeWrites twoRoutes.cluster s'.cluster := by
  refine ⟨runs_and_restores.1 (Execution.stateful (List String)) threeSteps [],
    _, _, rfl, by decide +kernel, by decide +kernel, ?_⟩
  have hstarts : ∀ w ∈ threeWrites, w.StartsFrom twoRoutes.cluster := by
    simp only [threeWrites, List.forall_mem_cons]
    exact ⟨.route rfl, .document rfl (by decide +kernel), .route rfl, List.forall_mem_nil _⟩
  obtain ⟨_, _, _, -, -, -, hrestored⟩ := runs_and_restores.2
    ((wellFormed_shopCluster.putRoute ⟨rfl, rfl, rfl⟩).putDocument ⟨rfl, rfl⟩) hstarts
    (by decide +kernel) rfl
  exact hrestored (by decide +kernel)

end Transaction

end CanaryRouting
