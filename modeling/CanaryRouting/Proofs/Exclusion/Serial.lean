import CanaryRouting.Proofs.Exclusion.Alike
import CanaryRouting.Proofs.Exclusion.Section
import CanaryRouting.Proofs.Exclusion.Turns
import Mathlib.Data.List.Induction
import Mathlib.Data.List.Perm.Subperm

/-!
# Changes of header routes one at a time

On one router, changes of header routes that work with one registry document take effect one after
the other, in the order in which they take the lock of the document (`serial_of_lockOrder`). The
invariant of a run is that it has come as far as the operations that have released the lock would
have brought the cluster one at a time (`Replays`), and that what the holder of the lock has still to
do leads where its whole operation would have led from there (`Exclusive`).
-/

namespace CanaryRouting

open Program

/-! ### One at a time -/

/-- Carries out operations one at a time. -/
def Cluster.carryOut (c : Cluster) : List Order → List Order.Result × Cluster
  | [] => ([], c)
  | o :: os =>
    let first := o.program.run Cluster.respond c
    let later := first.2.carryOut os
    (first.1 :: later.1, later.2)

/-- The operations of these callers, one at a time, end as they have ended in a run, and lead from
one cluster to another. Meanwhile the cluster stays well formed, and looks as it did. -/
inductive Replays (start : Cluster) (orders : List Order) (result? : Nat → Option Order.Result) :
    Cluster → List Nat → Cluster → Prop where
  /-- Nothing is done. -/
  | nil {c : Cluster} : Replays start orders result? c [] c
  /-- One operation is carried out, and then others. -/
  | cons {i : Nat} {is : List Nat} {o : Order} {a : Order.Result} {c c₁ c' : Cluster} :
    c.WellFormed → start.Alike c → orders[i]? = some o →
    o.program.run Cluster.respond c = (a, c₁) → result? i = some a →
    Replays start orders result? c₁ is c' → Replays start orders result? c (i :: is) c'

namespace Replays

variable {start c c₁ c' : Cluster} {orders : List Order} {result? result?' : Nat → Option Order.Result}
  {is : List Nat}

theorem mono (h : Replays start orders result? c is c')
    (hresult : ∀ i a, result? i = some a → result?' i = some a) :
    Replays start orders result?' c is c' := by
  induction h with
  | nil => exact .nil
  | cons hwell halike ho hrun ha _ ih => exact .cons hwell halike ho hrun (hresult _ _ ha) ih

theorem concat (h : Replays start orders result? c is c₁) {i : Nat} {o : Order} {a : Order.Result}
    (hwell : c₁.WellFormed) (halike : start.Alike c₁) (ho : orders[i]? = some o)
    (hrun : o.program.run Cluster.respond c₁ = (a, c')) (ha : result? i = some a) :
    Replays start orders result? c (is ++ [i]) c' := by
  induction h with
  | nil => exact .cons hwell halike ho hrun ha .nil
  | cons hwell' halike' ho' hrun' ha' _ ih =>
    exact .cons hwell' halike' ho' hrun' ha' (ih hwell halike hrun)

/-- Each operation ends as it does alone. -/
theorem alone (h : Replays start orders result? c is c') {i : Nat} (hi : i ∈ is) :
    ∃ o c₀, orders[i]? = some o ∧ Cluster.WellFormed c₀ ∧
      result? i = some (o.program.run Cluster.respond c₀).1 := by
  induction h with
  | nil => cases hi
  | cons hwell _ ho hrun ha _ ih =>
    rcases List.mem_cons.1 hi with rfl | hi
    · exact ⟨_, _, ho, hwell, by rw [ha, hrun]⟩
    · exact ih hi

/-- The cluster was as it is in the end. -/
theorem begins (h : Replays start orders result? c is c') (hwell : c'.WellFormed)
    (halike : start.Alike c') : c.WellFormed ∧ start.Alike c := by
  cases h with
  | nil => exact ⟨hwell, halike⟩
  | cons hwell halike _ _ _ _ => exact ⟨hwell, halike⟩

/-- Operations that change nothing can be carried out at any time in between. -/
theorem insert {order : List Nat} (h : Replays start orders result? c is c')
    (hsub : is.Sublist order) (hnodup : order.Nodup) (hwell : c'.WellFormed)
    (halike : start.Alike c') (hothers : ∀ i ∈ order, i ∉ is → ∃ o a, orders[i]? = some o ∧
      result? i = some a ∧ ∀ c, start.Alike c → o.program.run Cluster.respond c = (a, c)) :
    Replays start orders result? c order c' := by
  induction hsub generalizing c with
  | slnil => exact h
  | @cons is order i hsub ih =>
    obtain ⟨hi, hnodup⟩ := List.nodup_cons.1 hnodup
    obtain ⟨hwell₁, halike₁⟩ := h.begins hwell halike
    obtain ⟨o, a, ho, ha, hsame⟩ := hothers i (List.mem_cons_self ..) fun hmem =>
      hi (hsub.subset hmem)
    exact .cons hwell₁ halike₁ ho (hsame c halike₁) ha
      (ih h hnodup fun j hj => hothers j (List.mem_cons_of_mem _ hj))
  | @cons_cons is order i hsub ih =>
    obtain ⟨hi, hnodup⟩ := List.nodup_cons.1 hnodup
    cases h with
    | cons hwell₁ halike₁ ho hrun ha hrest =>
      refine .cons hwell₁ halike₁ ho hrun ha (ih hrest hnodup fun j hj hjs => ?_)
      refine hothers j (List.mem_cons_of_mem _ hj) fun hmem => ?_
      rcases List.mem_cons.1 hmem with rfl | hmem
      · exact hi hj
      · exact hjs hmem

/-- The operations are carried out one at a time. -/
theorem carryOut_eq (h : Replays start orders result? c is c') :
    c.carryOut (is.filterMap fun i => orders[i]?) = (is.filterMap result?, c') := by
  induction h with
  | nil => rfl
  | cons _ _ ho hrun ha _ ih =>
    rw [List.filterMap_cons_some ho, List.filterMap_cons_some ha, Cluster.carryOut, hrun]
    simp only [ih]

end Replays

/-! ### The invariant -/

/-- What is left to do leads where the whole operation would have led. -/
def Program.Continues {α : Type} (rest : Program α) (c : Cluster) (p : Program α) (c₀ : Cluster) : Prop :=
  rest.run Cluster.respond c = p.run Cluster.respond c₀

/-- The invariant of a run: some operations have released the lock, and at most one holds it. -/
structure Exclusive (key : DocumentKey) (host : Nat) (start : Cluster) (orders : List Order)
    (t : Traffic Order.Result) (released : List Nat) (holder? : Option Nat) : Prop where
  /-- There is a program for each operation. -/
  length : t.callers.length = orders.length
  /-- They run on one host. -/
  hosts : ∀ p ∈ t.callers, p.host = host
  /-- Each takes the lock once. -/
  nodup : (released ++ holder?.toList).Nodup
  /-- The cluster is as it is after the operations that have released the lock, and some of the
  work of the one that holds it. -/
  replays : ∃ c, c.WellFormed ∧ start.Alike c ∧
    Replays start orders t.result? start released c ∧
    (holder? = none → t.cluster = c) ∧
    ∀ i ∈ holder?, ∃ o p, orders[i]? = some o ∧ t.callers[i]? = some p ∧ p.held = [key] ∧
      p.rest.Lockless ∧ p.rest.Continues t.cluster o.program c
  /-- The other operations have not come to the lock, or have failed before. -/
  approaching : ∀ i p o, t.callers[i]? = some p → orders[i]? = some o →
    i ∉ released ++ holder?.toList → p.held = [] ∧ p.rest.Approaches key ∧
      ∀ c, start.Alike c → p.rest.Continues c o.program c

namespace Exclusive

variable {key : DocumentKey} {host : Nat} {start : Cluster} {orders : List Order}
  {t : Traffic Order.Result} {released : List Nat} {holder? : Option Nat}

theorem start_exclusive (hc : start.WellFormed) (hhost : ∀ o ∈ orders, o.host = host)
    (hworks : ∀ o ∈ orders, o.WorksOn key)
    (hchange : ∀ o ∈ orders, (o.operation.headerChange? o.rollout).isSome) :
    Exclusive key host start orders (Traffic.start start orders) [] none where
  length := List.length_map ..
  hosts p hp := by
    obtain ⟨o, ho, rfl⟩ := List.mem_map.1 hp
    exact hhost o ho
  nodup := .nil
  replays := ⟨start, hc, .refl start, .nil, fun _ => rfl, fun _ hi => nomatch hi⟩
  approaching i p o hp ho _ := by
    rw [Traffic.start, List.getElem?_map, ho, Option.map_some, Option.some.injEq] at hp
    subst hp
    have hmem := List.mem_of_getElem? ho
    exact ⟨rfl, Order.approaches_program (hchange o hmem) (hworks o hmem), fun _ _ => rfl⟩

/-- A holder that has ended has released the lock. -/
theorem release (h : Exclusive key host start orders t released holder?)
    (hended : ∀ i ∈ holder?, (t.result? i).isSome) (hwell : t.cluster.WellFormed)
    (halike : start.Alike t.cluster) :
    Exclusive key host start orders t (released ++ holder?.toList) none := by
  cases holder? with
  | none => simpa using h
  | some i =>
    obtain ⟨c, hc, hcalike, hreplays, -, hholder⟩ := h.replays
    obtain ⟨o, p, ho, hp, hheld, -, hcontinues⟩ := hholder i rfl
    obtain ⟨a, ha⟩ := Option.isSome_iff_exists.1 (hended i rfl)
    have hresult := ha
    rw [Traffic.result?, hp, Option.bind_some] at hresult
    rw [Program.Continues, Caller.rest_of_result? hresult] at hcontinues
    exact ⟨h.length, h.hosts, by simpa using h.nodup, ⟨t.cluster, hwell, halike,
      hreplays.concat hc hcalike ho hcontinues.symm ha, fun _ => rfl, fun _ hi => nomatch hi⟩,
      fun j q o' hq ho' hj => h.approaching j q o' hq ho' (by simpa using hj)⟩

/-- An operation that has released the lock has ended. -/
theorem ended (h : Exclusive key host start orders t released holder?) {i : Nat} {p : Caller Order.Result}
    (hi : i ∈ released) (hp : t.callers[i]? = some p) : ∃ a, p.rest = .done a := by
  obtain ⟨c, -, -, hreplays, -⟩ := h.replays
  obtain ⟨_, _, -, -, ha⟩ := hreplays.alone hi
  rw [Traffic.result?, hp, Option.bind_some] at ha
  exact ⟨_, Caller.rest_of_result? ha⟩

/-- An operation that has not ended has not released the lock. -/
theorem not_released (h : Exclusive key host start orders t released holder?) {i : Nat}
    {p : Caller Order.Result} (hp : t.callers[i]? = some p) (hresult : p.result? = none) :
    i ∉ released := fun hi => by
  obtain ⟨a, ha⟩ := h.ended hi hp
  rw [Caller.result?, ha] at hresult
  cases hresult

/-- An operation that neither has released the lock nor holds it is on its way to it. -/
theorem outside (h : Exclusive key host start orders t released holder?) {i : Nat}
    {p : Caller Order.Result} (hp : t.callers[i]? = some p) (hreleased : i ∉ released)
    (hholder : holder? ≠ some i) :
    ∃ o, orders[i]? = some o ∧ p.held = [] ∧ p.rest.Approaches key ∧
      ∀ c, start.Alike c → p.rest.Continues c o.program c := by
  have hlt : i < t.callers.length := (List.getElem?_eq_some_iff.1 hp).1
  obtain ⟨o, ho⟩ : ∃ o, orders[i]? = some o := ⟨_, List.getElem?_eq_getElem (h.length ▸ hlt)⟩
  refine ⟨o, ho, h.approaching i p o hp ho ?_⟩
  rw [List.mem_append, Option.mem_toList]
  exact fun hor => hor.elim hreleased hholder

/-- The programs run on one host. -/
theorem hosts_set (h : Exclusive key host start orders t released holder?) {i : Nat}
    {p q : Caller Order.Result} (hp : t.callers[i]? = some p) (hhost : q.host = p.host) :
    ∀ q' ∈ t.callers.set i q, q'.host = host :=
  Traffic.host_set h.hosts (hhost.trans (h.hosts p (List.mem_of_getElem? hp)))

/-- What has ended stays so when another program goes on. -/
theorem result?_set {i : Nat} {p q : Caller Order.Result} (hp : t.callers[i]? = some p)
    (hrest : p.result? = none) {c : Cluster} {events : List Event} (j : Nat) (a : Order.Result)
    (ha : t.result? j = some a) :
    ({ cluster := c, callers := t.callers.set i q, events := events } : Traffic Order.Result).result? j =
      some a := by
  have hne : i ≠ j := fun e => by
    subst e
    rw [Traffic.result?, hp, Option.bind_some, hrest] at ha
    cases ha
  rw [Traffic.result?, List.getElem?_set_ne hne]
  exact ha

/-- A request of the holder of the lock is answered: the holder does what it would do alone. -/
theorem asked_holder {i : Nat} (h : Exclusive key host start orders t released (some i))
    {p : Caller Order.Result} {r : Request} {next : Except ApiFailure r.Answer → Program Order.Result}
    (hp : t.callers[i]? = some p) (hrest : p.rest = .ask r next) (events : List Event) :
    Exclusive key host start orders {
      cluster := (Cluster.respond r t.cluster).2
      callers := t.callers.set i { p with rest := next (Cluster.respond r t.cluster).1 }
      events } released (some i) := by
  have hresult : p.result? = none := by rw [Caller.result?, hrest]
  obtain ⟨c, hc, hcalike, hreplays, -, hholder⟩ := h.replays
  obtain ⟨o, _, ho, hp', hheld, hlockless, hcontinues⟩ := hholder i rfl
  cases hp.symm.trans hp'
  rw [hrest] at hlockless hcontinues
  cases hlockless with
  | ask hnext =>
    refine ⟨(List.length_set ..).trans h.length, h.hosts_set hp rfl, h.nodup, ⟨c, hc, hcalike,
      hreplays.mono (result?_set hp hresult), by simp, ?_⟩, fun j q o' hq ho' hj => ?_⟩
    · rintro _ ⟨⟩
      exact ⟨o, _, ho, List.getElem?_set_self (List.getElem?_eq_some_iff.1 hp).1, hheld, hnext _,
        hcontinues⟩
    · have hne : i ≠ j := fun e => hj (List.mem_append_right _ (List.mem_singleton.2 e.symm))
      rw [List.getElem?_set_ne hne] at hq
      exact h.approaching j q o' hq ho' hj

/-- A request of any other operation is answered: it lists routes, and is answered as it would be at
any other time. -/
theorem asked_outside (h : Exclusive key host start orders t released holder?) {i : Nat}
    {p : Caller Order.Result} {r : Request} {next : Except ApiFailure r.Answer → Program Order.Result}
    (hp : t.callers[i]? = some p) (hrest : p.rest = .ask r next) (hholds : holder? ≠ some i)
    (halike : start.Alike t.cluster) (events : List Event) :
    Exclusive key host start orders {
      cluster := (Cluster.respond r t.cluster).2
      callers := t.callers.set i { p with rest := next (Cluster.respond r t.cluster).1 }
      events } released holder? := by
  have hresult : p.result? = none := by rw [Caller.result?, hrest]
  obtain ⟨o, ho, hheld, happroaches, hcontinues⟩ := h.outside hp (h.not_released hp hresult) hholds
  obtain ⟨c, hc, hcalike, hreplays, hfree, hholder⟩ := h.replays
  rw [hrest] at happroaches
  cases happroaches with
  | @ask space kind selector next hnext =>
    have hsame : ∀ c, (Cluster.respond (.listRoutes space kind selector) c).2 = c := fun c =>
      Cluster.respond_listRoutes ..
    refine ⟨(List.length_set ..).trans h.length, h.hosts_set hp rfl, h.nodup, ⟨c, hc, hcalike,
      hreplays.mono (result?_set hp hresult), fun hnone => (hsame _).trans (hfree hnone), ?_⟩,
      fun j q o' hq ho' hj => ?_⟩
    · intro j hj
      obtain ⟨o', q, ho', hq, hrest'⟩ := hholder j hj
      have hne : i ≠ j := fun e => hholds (e ▸ hj)
      simp only [hsame]
      exact ⟨o', q, ho', (List.getElem?_set_ne hne).trans hq, hrest'⟩
    · obtain ⟨rfl, rfl⟩ | ⟨-, hq⟩ := Traffic.callers_set_cases hq
      · cases ho.symm.trans ho'
        refine ⟨hheld, hnext _, fun c' hc' => ?_⟩
        have hrun := hcontinues c' hc'
        rw [Program.Continues, hrest, run_ask, hsame, hc'.answer_eq] at hrun
        simp only [halike.answer_eq]
        exact hrun
      · exact h.approaching j q o' hq ho' hj

/-- There is one lock only, and its holder does not take it again. -/
theorem key_eq (h : Exclusive key host start orders t released holder?) {i : Nat}
    {p : Caller Order.Result} {space document : String} {next : Program Order.Result}
    (hp : t.callers[i]? = some p) (hrest : p.rest = .lock space document next) :
    (⟨space, document⟩ : DocumentKey) = key := by
  have hresult : p.result? = none := by rw [Caller.result?, hrest]
  have hholder : holder? ≠ some i := fun hi => by
    obtain ⟨c, -, -, -, -, hholder⟩ := h.replays
    obtain ⟨o, q, -, hq, -, hlockless, -⟩ := hholder i hi
    cases hp.symm.trans hq
    rw [hrest] at hlockless
    cases hlockless
  obtain ⟨o, -, -, happroaches, -⟩ := h.outside hp (h.not_released hp hresult) hholder
  rw [hrest] at happroaches
  cases happroaches
  rfl

/-- If nobody holds the lock, whoever has taken it last has ended. -/
theorem holder_ended (h : Exclusive key host start orders t released holder?)
    (hfree : t.isTaken host key = false) : ∀ i ∈ holder?, (t.result? i).isSome := by
  intro i hi
  obtain ⟨c, -, -, -, -, hholder⟩ := h.replays
  obtain ⟨o, q, -, hq, hheld, -⟩ := hholder i hi
  have hmem := List.mem_of_getElem? hq
  have hnot := List.any_eq_false.1 hfree q hmem
  rw [Traffic.result?, hq, Option.bind_some]
  simpa [h.hosts q hmem, Caller.holds, hheld, Option.isSome_iff_ne_none] using hnot

/-- The lock is taken. -/
theorem locked (h : Exclusive key host start orders t released none) {i : Nat}
    {p : Caller Order.Result} {space document : String} {next : Program Order.Result}
    (hp : t.callers[i]? = some p) (hrest : p.rest = .lock space document next)
    (hwell : t.cluster.WellFormed) (halike : start.Alike t.cluster) :
    Exclusive key host start orders { t with
      callers := t.callers.set i { p with rest := next, held := ⟨space, document⟩ :: p.held } }
      released (some i) := by
  have hresult : p.result? = none := by rw [Caller.result?, hrest]
  have hreleased := h.not_released hp hresult
  obtain ⟨o, ho, hheld, happroaches, hcontinues⟩ := h.outside hp hreleased (by simp)
  obtain ⟨c, hc, hcalike, hreplays, hfree, -⟩ := h.replays
  obtain rfl := hfree rfl
  rw [hrest] at happroaches
  cases happroaches with
  | lock hlockless =>
    refine ⟨(List.length_set ..).trans h.length, h.hosts_set hp rfl, ?_, ⟨t.cluster, hwell, halike,
      hreplays.mono (result?_set hp hresult), by simp, ?_⟩, fun j q o' hq ho' hj => ?_⟩
    · have hnodup : released.Nodup := by simpa using h.nodup
      exact List.nodup_append.2 ⟨hnodup, by simp, fun a ha b hb =>
        fun e => hreleased (List.mem_singleton.1 hb ▸ e ▸ ha)⟩
    · rintro _ ⟨⟩
      refine ⟨o, _, ho, List.getElem?_set_self (List.getElem?_eq_some_iff.1 hp).1, by rw [hheld],
        hlockless, ?_⟩
      have hrun := hcontinues t.cluster halike
      rwa [Program.Continues, hrest, run_lock] at hrun
    · rw [List.mem_append, Option.mem_toList, not_or] at hj
      have hne : i ≠ j := fun e => hj.2 (congrArg some e)
      rw [List.getElem?_set_ne hne] at hq
      exact h.approaching j q o' hq ho' (by simpa using hj.1)

/-- A step without a failure keeps the invariant. -/
theorem step (h : Exclusive key host start orders t released holder?) {turn : Turn}
    (hturn : turn.failure = none) (hwell : t.cluster.WellFormed) (halike : start.Alike t.cluster) :
    ∃ released' holder?', Exclusive key host start orders (t.step turn) released' holder?' ∧
      released' ++ holder?'.toList =
        released ++ holder?.toList ++ if t.takesLock turn then [turn.caller] else [] := by
  have hstep := t.stepped hturn
  generalize t.step turn = t', t.takesLock turn = takes at hstep
  cases hstep with
  | idle => exact ⟨released, holder?, h, by simp⟩
  | asked hp hrest =>
    refine ⟨released, holder?, ?_, by simp⟩
    by_cases hholds : holder? = some turn.caller
    · subst hholds
      exact h.asked_holder hp hrest _
    · exact h.asked_outside hp hrest hholds halike _
  | @locked p space document next hp hrest htaken =>
    rw [h.key_eq hp hrest, h.hosts p (List.mem_of_getElem? hp)] at htaken
    have hreleased := h.release (h.holder_ended htaken) hwell halike
    exact ⟨_, _, hreleased.locked hp hrest hwell halike, by simp⟩

/-! ### Coming to an end -/

/-- Whoever does not hold the lock has ended, or waits for it. -/
theorem ended_or_waits (h : Exclusive key host start orders t released holder?) {i : Nat}
    {p : Caller Order.Result} (hp : t.callers[i]? = some p) (hi : holder? ≠ some i) :
    p.holds key = false ∧ (p.result?.isSome ∨ p.rest.Approaches key) := by
  by_cases hreleased : i ∈ released
  · obtain ⟨a, ha⟩ := h.ended hreleased hp
    have hresult : p.result? = some a := by rw [Caller.result?, ha]
    simp [Caller.holds, hresult]
  · obtain ⟨o, -, hheld, happroaches, -⟩ := h.outside hp hreleased hi
    exact ⟨by simp [Caller.holds, hheld], .inr happroaches⟩

/-- The holder of the lock can come to its end, and then all others can. -/
theorem reaches_over (h : Exclusive key host start orders t released holder?) :
    ∃ t', t.Reaches t' ∧ t'.isOver := by
  cases hholder? : holder? with
  | none =>
    exact Traffic.reaches_over fun i p hp =>
      ⟨h.hosts p (List.mem_of_getElem? hp), h.ended_or_waits hp (by simp [hholder?])⟩
  | some i =>
    obtain ⟨c, -, -, -, -, hholder⟩ := h.replays
    obtain ⟨o, p, -, hp, -, hlockless, -⟩ := hholder i hholder?
    obtain ⟨t₁, q, hreaches, hset, hhost, hended⟩ :=
      @Traffic.reaches_end _ key i p.rest t p hp rfl (.inl hlockless)
    have hready : ∀ (j : Nat) (q' : Caller Order.Result), t₁.callers[j]? = some q' →
        q'.host = host ∧ q'.holds key = false ∧ (q'.result?.isSome ∨ q'.rest.Approaches key) := by
      intro j q' hq'
      rw [hset] at hq'
      obtain ⟨rfl, rfl⟩ | ⟨hne, hq'⟩ := Traffic.callers_set_cases hq'
      · exact ⟨hhost.trans (h.hosts p (List.mem_of_getElem? hp)), Caller.holds_of_ended hended key,
          .inl hended⟩
      · refine ⟨h.hosts q' (List.mem_of_getElem? hq'), h.ended_or_waits hq' ?_⟩
        rw [hholder?]
        exact fun e => hne (Option.some.inj e).symm
    obtain ⟨t', hreaches', hover⟩ := Traffic.reaches_over hready
    exact ⟨t', hreaches.trans hreaches', hover⟩

theorem lt_length (h : Exclusive key host start orders t released holder?) {i : Nat}
    (hi : i ∈ released ++ holder?.toList) : i < orders.length := by
  obtain ⟨c, -, -, hreplays, -, hholder⟩ := h.replays
  rcases List.mem_append.1 hi with hi | hi
  · obtain ⟨o, _, ho, -⟩ := hreplays.alone hi
    exact (List.getElem?_eq_some_iff.1 ho).1
  · obtain ⟨o, _, ho, -⟩ := hholder i (Option.mem_toList.1 hi)
    exact (List.getElem?_eq_some_iff.1 ho).1

/-- Every operation that has ended has ended as it does alone. -/
theorem alone (h : Exclusive key host start orders t released holder?) (hc : start.WellFormed)
    {i : Nat} {a : Order.Result} (ha : t.result? i = some a) :
    ∃ o c₀, orders[i]? = some o ∧ Cluster.WellFormed c₀ ∧
      (o.program.run Cluster.respond c₀).1 = a := by
  obtain ⟨p, hp, hpa⟩ := Option.bind_eq_some_iff.1 ha
  have hrest := Caller.rest_of_result? hpa
  obtain ⟨c, hwell, -, hreplays, -, hholder⟩ := h.replays
  by_cases hreleased : i ∈ released
  · obtain ⟨o, c₀, ho, hwell₀, ha'⟩ := hreplays.alone hreleased
    exact ⟨o, c₀, ho, hwell₀, Option.some.inj (ha'.symm.trans ha)⟩
  · by_cases hi : holder? = some i
    · obtain ⟨o, q, ho, hq, -, -, hcontinues⟩ := hholder i hi
      cases hp.symm.trans hq
      rw [Program.Continues, hrest] at hcontinues
      exact ⟨o, c, ho, hwell, (congrArg Prod.fst hcontinues).symm⟩
    · obtain ⟨o, ho, -, -, hcontinues⟩ := h.outside hp hreleased hi
      have hrun := hcontinues start (.refl start)
      rw [Program.Continues, hrest] at hrun
      exact ⟨o, start, ho, hc, (congrArg Prod.fst hrun).symm⟩

end Exclusive

/-! ### Runs -/

section

variable {c : Cluster} {key : DocumentKey} {host : Nat} {orders : List Order}

/-- A run without failures keeps the invariant. -/
theorem exclusive_of_run (hc : c.WellFormed) (hhost : ∀ o ∈ orders, o.host = host)
    (hworks : ∀ o ∈ orders, o.WorksOn key)
    (hchange : ∀ o ∈ orders, (o.operation.headerChange? o.rollout).isSome) (turns : List Turn)
    (hturns : ∀ turn ∈ turns, turn.failure = none) :
    ∃ released holder?, Exclusive key host c orders ((Traffic.start c orders).run turns) released
        holder? ∧
      released ++ holder?.toList = (Traffic.start c orders).lockOrder turns := by
  induction turns using List.reverseRecOn with
  | nil => exact ⟨[], none, .start_exclusive hc hhost hworks hchange, rfl⟩
  | append_singleton turns turn ih =>
    obtain ⟨released, holder?, h, horder⟩ := ih fun u hu => hturns u (List.mem_append_left _ hu)
    obtain ⟨known, haccount⟩ := account_of_run hc orders turns
    obtain ⟨released', holder?', h', horder'⟩ := h.step (hturns turn (by simp)) haccount.wellFormed
      (haccount.alike hchange)
    rw [Traffic.run_concat, Traffic.lockOrder_concat, ← horder]
    exact ⟨released', holder?', h', horder'⟩

/-- A run against the server is a run of which no request fails. -/
theorem run_undisturbed {α : Type} (p : Program α) (c : Cluster) :
    p.run FaultyCluster.respond c.undisturbed =
      ((p.run Cluster.respond c).1, (p.run Cluster.respond c).2.undisturbed) := by
  induction p generalizing c with
  | done a => rfl
  | ask r next ih => exact ih _ _
  | lock space document next ih => exact ih c

/-- On one router, changes of header routes that work with one registry document, of which no
request fails, come to an end however their requests are interleaved. None of them fails with a
conflict. All end as if they were carried out one at a time in the order in which they take the lock,
and so does the cluster; those that fail before they come to the lock may be put anywhere. -/
theorem serial_of_lockOrder (hc : c.WellFormed) (hhost : ∀ o ∈ orders, o.host = host)
    (hworks : ∀ o ∈ orders, o.WorksOn key)
    (hchange : ∀ o ∈ orders, (o.operation.headerChange? o.rollout).isSome) {turns : List Turn}
    (hturns : ∀ turn ∈ turns, turn.failure = none) :
    let t := (Traffic.start c orders).run turns
    let locking := (Traffic.start c orders).lockOrder turns
    (∃ t', t.Reaches t' ∧ t'.isOver) ∧
      (∀ i e, t.result? i = some (.error e) → e.isConflict = false) ∧
      locking.Subperm (List.range orders.length) ∧
      (t.isOver → ∀ order : List Nat, order.Perm (List.range orders.length) →
        locking.Sublist order → c.carryOut (order.filterMap fun i => orders[i]?) =
          (order.filterMap t.result?, t.cluster)) := by
  intro t locking
  obtain ⟨released, holder?, h, hlocking⟩ :
      ∃ released holder?, Exclusive key host c orders t released holder? ∧
        released ++ holder?.toList = locking :=
    exclusive_of_run hc hhost hworks hchange turns hturns
  obtain ⟨known, haccount⟩ := account_of_run hc orders turns
  refine ⟨h.reaches_over, fun i e he => ?_, ?_, fun hover order horder hsub => ?_⟩
  · obtain ⟨o, c₀, ho, hwell, hrun⟩ := h.alone hc he
    refine Router.not_conflict_of_perform hwell (hchange o (List.mem_of_getElem? ho)) ?_
    rw [Call.runOn]
    exact (congrArg Prod.fst (run_undisturbed _ _)).trans hrun
  · rw [← hlocking]
    exact h.nodup.subperm fun i hi => List.mem_range.2 (h.lt_length hi)
  · have hended : ∀ i < orders.length, (t.result? i).isSome := fun i hi => by
      have hp := List.getElem?_eq_getElem (h.length ▸ hi)
      rw [Traffic.result?, hp, Option.bind_some]
      exact List.all_eq_true.1 hover _ (List.getElem_mem _)
    have hreleased := h.release (fun i hi => hended i (h.lt_length (List.mem_append_right _
      (Option.mem_toList.2 hi)))) haccount.wellFormed (haccount.alike hchange)
    rw [hlocking] at hreleased
    obtain ⟨c', -, -, hreplays, hcluster, -⟩ := hreleased.replays
    rw [hcluster rfl]
    have hwell := hcluster rfl ▸ haccount.wellFormed
    have halike := hcluster rfl ▸ haccount.alike hchange
    refine (hreplays.insert hsub (horder.nodup_iff.2 List.nodup_range) hwell halike ?_).carryOut_eq
    -- Whoever has not come to the lock has only listed routes.
    intro i hi hnot
    have hlt : i < orders.length := List.mem_range.1 (horder.subset hi)
    obtain ⟨a, ha⟩ := Option.isSome_iff_exists.1 (hended i hlt)
    obtain ⟨p, hp, hpa⟩ := Option.bind_eq_some_iff.1 ha
    obtain ⟨-, -, hcontinues⟩ := hreleased.approaching i p _ hp (List.getElem?_eq_getElem hlt)
      (by simpa using hnot)
    refine ⟨_, a, List.getElem?_eq_getElem hlt, ha, fun c' hc' => ?_⟩
    have hrun := hcontinues c' hc'
    rw [Program.Continues, Caller.rest_of_result? hpa] at hrun
    exact hrun.symm

end

/-! ### A run

One router is asked for two header routes. The second request takes the lock before the first one.
-/

/-- The requests. -/
def queueOrders : List Order := [
  ⟨0, shopRollout, .setHeaderRoute ⟨"beta", [⟨"x-user", { exact := some "beta" }⟩]⟩⟩,
  ⟨0, shopRollout, .setHeaderRoute ⟨"staff", [⟨"x-user", { exact := some "staff" }⟩]⟩⟩]

/-- The turns. -/
def queueTurns : List Turn := turnsOf [1, 0, 1, 1, 0, 1, 1, 1, 0, 0, 0, 0, 0]

theorem serial_of_lockOrder_queue :
    (Traffic.start shopCluster queueOrders).lockOrder queueTurns = [1, 0] ∧
      shopCluster.carryOut queueOrders.reverse =
        ([.ok none, .ok none], ((Traffic.start shopCluster queueOrders).run queueTurns).cluster) := by
  have hlocking : (Traffic.start shopCluster queueOrders).lockOrder queueTurns = [1, 0] := by
    decide +kernel
  have hqueue : ∀ o ∈ queueOrders, o.host = 0 ∧ o.WorksOn shopDocument ∧
      (o.operation.headerChange? o.rollout).isSome := by
    intro o ho
    simp only [queueOrders, List.mem_cons, List.not_mem_nil, or_false] at ho
    rcases ho with rfl | rfl <;> exact ⟨rfl, worksOn_shopDocument _ _, rfl⟩
  have hundisturbed : ∀ turn ∈ queueTurns, turn.failure = none := by decide +kernel
  obtain ⟨-, -, -, hserial⟩ := serial_of_lockOrder wellFormed_shopCluster
    (fun o ho => (hqueue o ho).1) (fun o ho => (hqueue o ho).2.1) (fun o ho => (hqueue o ho).2.2)
    hundisturbed
  have hcarried := hserial (by decide +kernel) [1, 0] (by decide) (by rw [hlocking])
  exact ⟨hlocking, hcarried.trans (Prod.ext (by decide +kernel) rfl)⟩

end CanaryRouting
