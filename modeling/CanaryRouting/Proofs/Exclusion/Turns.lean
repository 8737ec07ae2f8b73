import CanaryRouting.Proofs.Cluster.Versions
import CanaryRouting.Proofs.Store.Sections

/-!
# Runs and locks

What a step of a run does, and in which order the programs of a run take their locks
(`Traffic.stepped`, `Traffic.lockOrder`). A run of programs that take one and the same lock, once
each, never gets stuck: nobody waits for a lock that nobody holds, and whoever holds it needs nothing
else (`Traffic.reaches_end`, `Traffic.reaches_over`).
-/

namespace CanaryRouting

open Program

theorem Caller.rest_of_result? {α : Type} {p : Caller α} {a : α} (h : p.result? = some a) :
    p.rest = .done a := by
  unfold result? at h
  split at h
  · next e => cases h; exact e
  · cases h

/-- A program that has ended holds no lock. -/
theorem Caller.holds_of_ended {α : Type} {p : Caller α} (h : p.result?.isSome) (key : DocumentKey) :
    p.holds key = false := by
  simp [holds, Option.isNone_iff_eq_none, Option.isSome_iff_ne_none.1 h]

/-! ### Taking locks -/

namespace Traffic

variable {α : Type}

/-- Whether a program takes a lock in a turn. -/
def takesLock (t : Traffic α) (turn : Turn) : Bool :=
  match t.callers[turn.caller]? with
  | none => false
  | some p =>
    match p.rest with
    | .lock space document _ => !t.isTaken p.host ⟨space, document⟩
    | _ => false

/-- The programs in the order in which they take locks. -/
def lockOrder (t : Traffic α) : List Turn → List Nat
  | [] => []
  | turn :: turns =>
    if t.takesLock turn then turn.caller :: (t.step turn).lockOrder turns
    else (t.step turn).lockOrder turns

/-- The result of a program, once it has ended. -/
def result? (t : Traffic α) (i : Nat) : Option α := (t.callers[i]?).bind Caller.result?

/-- Whether all programs have ended. -/
def isOver (t : Traffic α) : Bool := t.callers.all fun p => p.result?.isSome

/-- What a step without a failure does, and whether it takes a lock. -/
inductive Stepped (t : Traffic α) (i : Nat) : Traffic α → Bool → Prop where
  /-- There is no such program, it has ended, or it waits. -/
  | idle : Stepped t i t false
  /-- A request is answered. -/
  | asked {p : Caller α} {r : Request} {next : Except ApiFailure r.Answer → Program α} :
    t.callers[i]? = some p → p.rest = .ask r next → Stepped t i {
      cluster := (Cluster.respond r t.cluster).2
      callers := t.callers.set i { p with rest := next (Cluster.respond r t.cluster).1 }
      events := t.events ++ [⟨i, r, (Cluster.respond r t.cluster).1, t.cluster⟩] } false
  /-- A lock is taken. -/
  | locked {p : Caller α} {space document : String} {next : Program α} :
    t.callers[i]? = some p → p.rest = .lock space document next →
    t.isTaken p.host ⟨space, document⟩ = false → Stepped t i
      { t with callers := t.callers.set i { p with rest := next, held := ⟨space, document⟩ :: p.held } }
      true

theorem stepped (t : Traffic α) {turn : Turn} (hturn : turn.failure = none) :
    Stepped t turn.caller (t.step turn) (t.takesLock turn) := by
  unfold step takesLock
  cases hp : t.callers[turn.caller]? with
  | none => exact .idle
  | some p =>
    simp only
    cases hrest : p.rest with
    | done a => exact .idle
    | ask r next =>
      rw [hturn]
      exact .asked hp hrest
    | lock space document next =>
      simp only
      cases htaken : t.isTaken p.host ⟨space, document⟩ with
      | true => exact .idle
      | false => exact .locked hp hrest htaken

theorem run_concat (t : Traffic α) (turns : List Turn) (turn : Turn) :
    t.run (turns ++ [turn]) = (t.run turns).step turn := by
  rw [run, run, List.foldl_append]
  rfl

theorem lockOrder_concat (t : Traffic α) (turns : List Turn) (turn : Turn) :
    t.lockOrder (turns ++ [turn]) =
      t.lockOrder turns ++ if (t.run turns).takesLock turn then [turn.caller] else [] := by
  induction turns generalizing t with
  | nil => rfl
  | cons first turns ih =>
    rw [List.cons_append, lockOrder, lockOrder, ih]
    split <;> rfl

end Traffic

/-! ### Coming to an end -/

namespace Traffic

variable {α : Type} {t t' : Traffic α} {key : DocumentKey} {host i : Nat}

/-- One state can go on to another without a failure. -/
def Reaches (t t' : Traffic α) : Prop :=
  ∃ turns : List Turn, (∀ turn ∈ turns, turn.failure = none) ∧ t.run turns = t'

theorem Reaches.refl (t : Traffic α) : t.Reaches t := ⟨[], fun _ h => (nomatch h), rfl⟩

theorem Reaches.trans {t₁ : Traffic α} (h : t.Reaches t₁) (h' : t₁.Reaches t') : t.Reaches t' := by
  obtain ⟨turns, hturns, rfl⟩ := h
  obtain ⟨turns', hturns', rfl⟩ := h'
  refine ⟨turns ++ turns', fun turn hturn => ?_, List.foldl_append ..⟩
  exact (List.mem_append.1 hturn).elim (hturns turn) (hturns' turn)

theorem reaches_step (t : Traffic α) (i : Nat) : t.Reaches (t.step ⟨i, none⟩) :=
  ⟨[⟨i, none⟩], by simp, rfl⟩

theorem step_ask {p : Caller α} {r : Request} {next : Except ApiFailure r.Answer → Program α}
    (hp : t.callers[i]? = some p) (hrest : p.rest = .ask r next) :
    (t.step ⟨i, none⟩).callers =
      t.callers.set i { p with rest := next (Cluster.respond r t.cluster).1 } := by
  simp only [step, hp, hrest]
  rfl

theorem step_lock {p : Caller α} {space document : String} {next : Program α}
    (hp : t.callers[i]? = some p) (hrest : p.rest = .lock space document next)
    (hfree : t.isTaken p.host ⟨space, document⟩ = false) :
    (t.step ⟨i, none⟩).callers =
      t.callers.set i { p with rest := next, held := ⟨space, document⟩ :: p.held } := by
  simp only [step, hp, hrest, hfree]
  rfl

theorem isTaken_set (hfree : t.isTaken host key = false) {q : Caller α}
    (hcallers : t'.callers = t.callers.set i q) (hq : q.holds key = false) :
    t'.isTaken host key = false := by
  rw [isTaken, List.any_eq_false] at hfree ⊢
  intro q' hq'
  rw [hcallers] at hq'
  rcases List.mem_or_eq_of_mem_set hq' with hmem | rfl
  · exact hfree q' hmem
  · simp [hq]

theorem host_set (hhost : ∀ p ∈ t.callers, p.host = host) {q : Caller α} (hq : q.host = host) :
    ∀ p ∈ t.callers.set i q, p.host = host := by
  intro p hp
  rcases List.mem_or_eq_of_mem_set hp with hmem | rfl
  · exact hhost p hmem
  · exact hq

/-- A program that needs no lock, or can take it, can be brought to its end. -/
theorem reaches_end (rest : Program α) {t : Traffic α} {p : Caller α}
    (hp : t.callers[i]? = some p) (hp' : p.rest = rest)
    (hrest : rest.Lockless ∨ rest.Approaches key ∧ t.isTaken p.host key = false) :
    ∃ t' q, t.Reaches t' ∧ t'.callers = t.callers.set i q ∧ q.host = p.host ∧
      q.result?.isSome := by
  have hi : i < t.callers.length := (List.getElem?_eq_some_iff.1 hp).1
  induction rest generalizing t p with
  | done a =>
    refine ⟨t, p, .refl t, ?_, rfl, by rw [Caller.result?, hp']; rfl⟩
    rw [← (List.getElem?_eq_some_iff.1 hp).2, List.set_getElem_self]
  | ask r next ih =>
    have hcallers := step_ask hp hp'
    have hnext : (next (Cluster.respond r t.cluster).1).Lockless ∨
        (next (Cluster.respond r t.cluster).1).Approaches key ∧
          (t.step ⟨i, none⟩).isTaken p.host key = false := by
      rcases hrest with hlockless | ⟨happroaches, hfree⟩
      · cases hlockless with
        | ask h => exact .inl (h _)
      · cases happroaches with
        | ask h =>
          refine .inr ⟨h _, isTaken_set hfree hcallers ?_⟩
          have hholds := List.any_eq_false.1 hfree p (List.mem_of_getElem? hp)
          have hheld : p.held.contains key = false := by
            simpa [Caller.holds, Caller.result?, hp'] using hholds
          rw [Caller.holds, hheld, Bool.and_false]
    obtain ⟨t', q, hreaches, hset, hhost, hended⟩ := ih _
      (p := { p with rest := next (Cluster.respond r t.cluster).1 })
      (by rw [hcallers]; exact List.getElem?_set_self hi) rfl hnext
      (by rw [hcallers, List.length_set]; exact hi)
    exact ⟨t', q, (t.reaches_step i).trans hreaches, by rw [hset, hcallers, List.set_set], hhost,
      hended⟩
  | lock space document next ih =>
    rcases hrest with hlockless | ⟨happroaches, hfree⟩
    · cases hlockless
    · cases happroaches with
      | lock hnext =>
        have hcallers := step_lock hp hp' hfree
        obtain ⟨t', q, hreaches, hset, hhost, hended⟩ := ih
          (by rw [hcallers]; exact List.getElem?_set_self hi) rfl (.inl hnext)
          (by rw [hcallers, List.length_set]; exact hi)
        exact ⟨t', q, (t.reaches_step i).trans hreaches, by rw [hset, hcallers, List.set_set], hhost,
          hended⟩

/-- Some of the programs wait for a lock that nobody holds, and the others have ended: they can be
brought to their end, one after the other. -/
theorem reaches_over_of_mem (is : List Nat) {t : Traffic α}
    (hhost : ∀ p ∈ t.callers, p.host = host) (hfree : t.isTaken host key = false)
    (hready : ∀ (i : Nat) (p : Caller α), t.callers[i]? = some p →
      p.result?.isSome ∨ i ∈ is ∧ p.rest.Approaches key) :
    ∃ t', t.Reaches t' ∧ t'.isOver := by
  induction is generalizing t with
  | nil =>
    refine ⟨t, .refl t, List.all_eq_true.2 fun p hp => ?_⟩
    obtain ⟨i, hi, rfl⟩ := List.getElem_of_mem hp
    exact (hready i _ (List.getElem?_eq_getElem hi)).resolve_right fun h => nomatch h.1
  | cons i is ih =>
    cases hp : t.callers[i]? with
    | none =>
      refine ih hhost hfree fun j q hq => (hready j q hq).imp id fun ⟨hj, h⟩ => ⟨?_, h⟩
      refine (List.mem_cons.1 hj).resolve_left fun e => ?_
      rw [e, hp] at hq
      cases hq
    | some p =>
      have hphost := hhost p (List.mem_of_getElem? hp)
      rcases hready i p hp with hended | ⟨-, happroaches⟩
      · refine ih hhost hfree fun j q hq => ?_
        rcases hready j q hq with h | ⟨hj, h⟩
        · exact .inl h
        · rcases List.mem_cons.1 hj with rfl | hj
          · cases hp.symm.trans hq
            exact .inl hended
          · exact .inr ⟨hj, h⟩
      · obtain ⟨t₁, q, hreaches, hset, hqhost, hended⟩ :=
          reaches_end p.rest hp rfl (.inr ⟨happroaches, hphost ▸ hfree⟩)
        have hholds : q.holds key = false := Caller.holds_of_ended hended key
        have hhost₁ : ∀ p ∈ t₁.callers, p.host = host :=
          hset ▸ host_set hhost (hqhost.trans hphost)
        have hready₁ : ∀ (j : Nat) (q' : Caller α), t₁.callers[j]? = some q' →
            q'.result?.isSome ∨ j ∈ is ∧ q'.rest.Approaches key := fun j q' hq' => by
          rw [hset] at hq'
          obtain ⟨rfl, rfl⟩ | ⟨hne, hq'⟩ := callers_set_cases hq'
          · exact .inl hended
          · exact (hready j q' hq').imp id fun ⟨hj, h⟩ => ⟨(List.mem_cons.1 hj).resolve_left hne, h⟩
        obtain ⟨t', hreaches', hover⟩ := ih hhost₁ (isTaken_set hfree hset hholds) hready₁
        exact ⟨t', hreaches.trans hreaches', hover⟩

/-- If each program has ended or waits for a lock that nobody holds, all of them can be brought to
their end. -/
theorem reaches_over {t : Traffic α} (hready : ∀ (i : Nat) (p : Caller α), t.callers[i]? = some p →
    p.host = host ∧ p.holds key = false ∧ (p.result?.isSome ∨ p.rest.Approaches key)) :
    ∃ t', t.Reaches t' ∧ t'.isOver := by
  have hmem : ∀ p ∈ t.callers,
      p.host = host ∧ p.holds key = false ∧ (p.result?.isSome ∨ p.rest.Approaches key) := by
    intro p hp
    obtain ⟨i, hi, rfl⟩ := List.getElem_of_mem hp
    exact hready i _ (List.getElem?_eq_getElem hi)
  refine reaches_over_of_mem (List.range t.callers.length) (fun p hp => (hmem p hp).1)
    (List.any_eq_false.2 fun p hp => ?_) fun i p hp => (hready i p hp).2.2.imp id fun h =>
      ⟨List.mem_range.2 (List.getElem?_eq_some_iff.1 hp).1, h⟩
  simp [(hmem p hp).2.1]

end Traffic

end CanaryRouting
