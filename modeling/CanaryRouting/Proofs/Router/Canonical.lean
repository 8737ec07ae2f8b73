import CanaryRouting.Proofs.Config.Encoding
import CanaryRouting.Proofs.Router.Discovery
import Mathlib.Data.List.Basic
import Mathlib.Data.List.Nodup
import Mathlib.Data.List.TakeWhile
import Mathlib.Logic.Function.Basic

/-!
# The order of targets

Routes are mentioned by the lists of a configuration, by its single names and by what selectors
discover, in this order for each kind, and a route may be mentioned more than once. The targets of a
request are put together one mention after the other, first for all kinds from the configuration and
then for all kinds from what is discovered. What they are is said by the mentions of each kind alone
(`Target.Canonical`), and there is only one such list (`Canonical.unique`): each mention keeps it
(`Canonical.add`), so that the targets of a resolved request have it, whatever a server lists
(`canonical_of_resolve`).
-/

namespace CanaryRouting

open Program

/-- The routes of each kind that are mentioned, with the header routes asked for, in the order of
the mentions. -/
abbrev Mentions := RouteKind → List RouteEntry

namespace Mentions

/-- Further mentions of one kind. -/
def extend (m : Mentions) (kind : RouteKind) (es : List RouteEntry) : Mentions :=
  Function.update m kind (m kind ++ es)

/-- The place of the first mention of a name among those of a kind. -/
def firstPlace (m : Mentions) (kind : RouteKind) (name : String) : Nat :=
  ((m kind).map RouteEntry.name).idxOf name

/-- Some mention of a route asks for header routes. -/
def Asks (m : Mentions) (kind : RouteKind) (name : String) : Prop :=
  ∃ e ∈ m kind, e.name = name ∧ e.useHeaderRoutes

variable {m : Mentions} {kind : RouteKind} {es : List RouteEntry}

@[simp] theorem extend_self : m.extend kind es kind = m kind ++ es := by simp [extend]

@[simp] theorem extend_of_ne {kind' : RouteKind} (h : kind' ≠ kind) :
    m.extend kind es kind' = m kind' := by simp [extend, h]

@[simp] theorem extend_nil : m.extend kind [] = m := by simp [extend]

theorem extend_extend (m : Mentions) (kind : RouteKind) (es es' : List RouteEntry) :
    (m.extend kind es).extend kind es' = m.extend kind (es ++ es') := by
  simp [extend]

/-- Further mentions do not move the first mention of a name that has one. -/
theorem firstPlace_extend {kind' : RouteKind} {name : String}
    (h : name ∈ (m kind').map RouteEntry.name) :
    (m.extend kind es).firstPlace kind' name = m.firstPlace kind' name := by
  unfold firstPlace
  by_cases hkind : kind' = kind
  · subst hkind
    rw [extend_self, List.map_append, List.idxOf_append_of_mem h]
  · rw [extend_of_ne hkind]

theorem firstPlace_lt {name : String} (h : name ∈ (m kind).map RouteEntry.name) :
    m.firstPlace kind name < (m kind).length := by
  simpa [firstPlace] using List.idxOf_lt_length_iff.2 h

/-- The first mention of a new name is the last one. -/
theorem firstPlace_extend_new {e : RouteEntry} (h : e.name ∉ (m kind).map RouteEntry.name) :
    (m.extend kind [e]).firstPlace kind e.name = (m kind).length := by
  simp [firstPlace, List.idxOf_append_of_notMem h]

theorem Asks.mentioned {name : String} (h : m.Asks kind name) :
    name ∈ (m kind).map RouteEntry.name := by
  obtain ⟨e, he, rfl, -⟩ := h
  exact List.mem_map_of_mem he

theorem asks_extend {e : RouteEntry} {kind' : RouteKind} {name : String} :
    (m.extend kind [e]).Asks kind' name ↔
      m.Asks kind' name ∨ kind' = kind ∧ e.name = name ∧ e.useHeaderRoutes := by
  unfold Asks
  by_cases hkind : kind' = kind
  · subst hkind
    simp [or_and_right, exists_or]
  · simp [hkind]

end Mentions

namespace Target

/-- What a mention of a route makes of a target: if it is that route, the mention may switch its
header routes on. -/
def heed (kind : RouteKind) (e : RouteEntry) (t : Target) : Target :=
  if t.isFor kind e.name then { t with useHeaderRoutes := t.useHeaderRoutes || e.useHeaderRoutes }
  else t

@[simp] theorem kind_heed (kind : RouteKind) (e : RouteEntry) (t : Target) :
    (t.heed kind e).kind = t.kind := by
  unfold heed; split <;> rfl

@[simp] theorem name_heed (kind : RouteKind) (e : RouteEntry) (t : Target) :
    (t.heed kind e).name = t.name := by
  unfold heed; split <;> rfl

theorem useHeaderRoutes_heed (kind : RouteKind) (e : RouteEntry) (t : Target) :
    (t.heed kind e).useHeaderRoutes ↔
      t.useHeaderRoutes ∨ t.kind = kind ∧ e.name = t.name ∧ e.useHeaderRoutes := by
  unfold heed
  split
  · next hfor =>
    obtain ⟨hkind, hname⟩ := Prod.mk.injEq .. ▸ isFor_iff.1 hfor
    simp [hkind, hname]
  · next hfor =>
    have hother : ¬ (t.kind = kind ∧ t.name = e.name) := fun h =>
      hfor (isFor_iff.2 (Prod.ext h.1 h.2))
    grind

/-- Adding a route that is a target already. -/
theorem add_of_mem {targets : List Target} {kind : RouteKind} {e : RouteEntry}
    (h : (kind, e.name) ∈ targets.map identity) :
    add targets kind e.name e.useHeaderRoutes = targets.map (heed kind e) := by
  obtain ⟨t, ht, hid⟩ := List.mem_map.1 h
  exact if_pos (List.any_eq_true.2 ⟨t, ht, isFor_iff.2 hid⟩)

/-- Adding a new route, which comes behind the targets of its kind and before those of later
kinds. -/
theorem add_of_notMem {targets : List Target} {kind : RouteKind} {e : RouteEntry}
    (h : (kind, e.name) ∉ targets.map identity)
    (hsorted : targets.Pairwise fun t t' => t.kind.rank ≤ t'.kind.rank) :
    ∃ before after, targets = before ++ after ∧
      add targets kind e.name e.useHeaderRoutes =
        before ++ ⟨kind, e.name, e.useHeaderRoutes⟩ :: after ∧
      (∀ t ∈ before, t.kind.rank ≤ kind.rank) ∧ ∀ t ∈ after, kind.rank < t.kind.rank := by
  have hnone : ¬ targets.any fun t => t.isFor kind e.name := fun hany => by
    obtain ⟨t, ht, hfor⟩ := List.any_eq_true.1 hany
    exact h (List.mem_map.2 ⟨t, ht, isFor_iff.1 hfor⟩)
  refine ⟨_, _,
    (List.takeWhile_append_dropWhile (p := fun t : Target => t.kind.rank ≤ kind.rank)).symm,
    if_neg hnone, fun t ht => by simpa using List.mem_takeWhile_imp ht, fun t ht => ?_⟩
  -- The first target behind the new one is of a later kind, and those behind it are of no earlier.
  have hlater := hsorted.sublist (List.dropWhile_sublist fun t : Target => t.kind.rank ≤ kind.rank)
  cases hafter : targets.dropWhile fun t => t.kind.rank ≤ kind.rank with
  | nil => rw [hafter] at ht; cases ht
  | cons t₁ after =>
    have hfirst : kind.rank < t₁.kind.rank := by
      have hnot := List.head?_dropWhile_not (fun t : Target => t.kind.rank ≤ kind.rank) targets
      rw [hafter] at hnot
      simpa using hnot
    rw [hafter] at ht hlater
    rcases List.mem_cons.1 ht with rfl | ht
    · exact hfirst
    · exact Nat.lt_of_lt_of_le hfirst ((List.pairwise_cons.1 hlater).1 t ht)

/-- An order is kept by what is put where it belongs. -/
theorem pairwise_insert {r : Target → Target → Prop} {before after : List Target} {t : Target}
    (h : (before ++ after).Pairwise r) (hbefore : ∀ t' ∈ before, r t' t)
    (hafter : ∀ t' ∈ after, r t t') : (before ++ t :: after).Pairwise r := by
  rw [List.pairwise_append] at h ⊢
  refine ⟨h.1, List.pairwise_cons.2 ⟨hafter, h.2.1⟩, fun t₁ ht₁ t₂ ht₂ => ?_⟩
  rcases List.mem_cons.1 ht₂ with rfl | ht₂
  · exact hbefore t₁ ht₁
  · exact h.2.2 t₁ ht₁ t₂ ht₂

/-- The targets are the mentioned routes, each once, by kind and then by first mention, and with
header routes if any mention asks for them. -/
structure Canonical (m : Mentions) (targets : List Target) : Prop where
  /-- The targets are the routes that are mentioned. -/
  mem_iff : ∀ kind name,
    (kind, name) ∈ targets.map identity ↔ name ∈ (m kind).map RouteEntry.name
  /-- Every route is a target once. -/
  nodup : (targets.map identity).Nodup
  /-- The kinds stand in their order. -/
  sorted : targets.Pairwise fun t t' => t.kind.rank ≤ t'.kind.rank
  /-- The routes of a kind stand in the order of their first mentions. -/
  inOrder : targets.Pairwise fun t t' =>
    t.kind = t'.kind → m.firstPlace t.kind t.name < m.firstPlace t'.kind t'.name
  /-- A route gets header routes if one of its mentions asks for them. -/
  useHeaderRoutes_iff : ∀ t ∈ targets,
    t.useHeaderRoutes ↔ m.Asks t.kind t.name

namespace Canonical

variable {m : Mentions} {targets : List Target}

theorem nil : Canonical (fun _ => []) [] := ⟨by simp, .nil, .nil, .nil, by simp⟩

theorem congr (h : Canonical m targets) {m' : Mentions} (hm : ∀ kind, m kind = m' kind) :
    Canonical m' targets := funext hm ▸ h

theorem mentioned (h : Canonical m targets) {t : Target} (ht : t ∈ targets) :
    t.name ∈ (m t.kind).map RouteEntry.name :=
  (h.mem_iff t.kind t.name).1 (List.mem_map.2 ⟨t, ht, rfl⟩)

/-- After a further mention the targets are still in order. -/
theorem inOrder_extend (h : Canonical m targets) (kind : RouteKind) (e : RouteEntry) :
    targets.Pairwise fun t t' => t.kind = t'.kind →
      (m.extend kind [e]).firstPlace t.kind t.name <
        (m.extend kind [e]).firstPlace t'.kind t'.name := by
  refine h.inOrder.imp_of_mem fun ht ht' hlt => ?_
  rwa [Mentions.firstPlace_extend (h.mentioned ht), Mentions.firstPlace_extend (h.mentioned ht')]

theorem mem_iff_add (h : Canonical m targets) (kind : RouteKind) (e : RouteEntry)
    (kind' : RouteKind) (name : String) :
    (kind', name) ∈ (Target.add targets kind e.name e.useHeaderRoutes).map identity ↔
      name ∈ (m.extend kind [e] kind').map RouteEntry.name := by
  rw [mem_identity_add, h.mem_iff, Prod.mk.injEq]
  by_cases hkind : kind' = kind
  · subst hkind
    simp
  · simp [hkind]

/-- A mention of a route that is a target already can only switch its header routes on. -/
theorem add_old (h : Canonical m targets) {kind : RouteKind} {e : RouteEntry}
    (hold : (kind, e.name) ∈ targets.map identity) :
    Canonical (m.extend kind [e]) (Target.add targets kind e.name e.useHeaderRoutes) := by
  have hmem := h.mem_iff_add kind e
  have hnodup := nodup_add h.nodup kind e.name e.useHeaderRoutes
  rw [add_of_mem hold] at hmem hnodup ⊢
  refine ⟨hmem, hnodup, by simpa [List.pairwise_map] using h.sorted,
    by simpa [List.pairwise_map] using h.inOrder_extend kind e, fun t ht => ?_⟩
  obtain ⟨t₀, ht₀, rfl⟩ := List.mem_map.1 ht
  rw [useHeaderRoutes_heed, h.useHeaderRoutes_iff t₀ ht₀, kind_heed, name_heed,
    Mentions.asks_extend]

/-- A mention of a new route asks for nothing of the targets that are there. -/
theorem useHeaderRoutes_iff_extend (h : Canonical m targets) {kind : RouteKind} {e : RouteEntry}
    (hnew : (kind, e.name) ∉ targets.map identity) {t : Target} (ht : t ∈ targets) :
    t.useHeaderRoutes ↔ (m.extend kind [e]).Asks t.kind t.name := by
  have hother : ¬ (t.kind = kind ∧ e.name = t.name ∧ e.useHeaderRoutes) :=
    fun ⟨hkind, hname, _⟩ => hnew (List.mem_map.2 ⟨t, ht, Prod.ext hkind hname.symm⟩)
  rw [Mentions.asks_extend, or_iff_left hother, h.useHeaderRoutes_iff t ht]

/-- A new route is mentioned after all others of its kind, and stands behind them. -/
theorem add_new (h : Canonical m targets) {kind : RouteKind} {e : RouteEntry}
    (hnew : (kind, e.name) ∉ targets.map identity) :
    Canonical (m.extend kind [e]) (Target.add targets kind e.name e.useHeaderRoutes) := by
  have hmem := h.mem_iff_add kind e
  have hnodup := nodup_add h.nodup kind e.name e.useHeaderRoutes
  have hunmentioned : e.name ∉ (m kind).map RouteEntry.name := fun hname =>
    hnew ((h.mem_iff kind e.name).2 hname)
  obtain ⟨before, after, hsplit, hadd, hbefore, hafter⟩ := add_of_notMem hnew h.sorted
  rw [hadd] at hmem hnodup ⊢
  refine ⟨hmem, hnodup, ?sorted, ?inOrder, fun t ht => ?flag⟩
  case sorted =>
    exact pairwise_insert (hsplit ▸ h.sorted) hbefore fun t ht => Nat.le_of_lt (hafter t ht)
  case inOrder =>
    refine pairwise_insert (hsplit ▸ h.inOrder_extend kind e) (fun t ht hkind => ?_)
      fun t ht hkind => ?_
    · obtain rfl : t.kind = kind := hkind
      have hname := h.mentioned (hsplit ▸ List.mem_append_left _ ht)
      rw [Mentions.firstPlace_extend hname, Mentions.firstPlace_extend_new hunmentioned]
      exact Mentions.firstPlace_lt hname
    · exact absurd (congrArg RouteKind.rank hkind) (Nat.ne_of_lt (hafter t ht))
  case flag =>
    rcases (List.mem_append.1 ht).imp_right List.mem_cons.1 with ht | rfl | ht
    · exact h.useHeaderRoutes_iff_extend hnew (hsplit ▸ List.mem_append_left _ ht)
    · rw [Mentions.asks_extend, or_iff_right (mt Mentions.Asks.mentioned hunmentioned)]
      simp
    · exact h.useHeaderRoutes_iff_extend hnew (hsplit ▸ List.mem_append_right _ ht)

/-- A mention keeps the targets canonical. -/
theorem add (h : Canonical m targets) (kind : RouteKind) (e : RouteEntry) :
    Canonical (m.extend kind [e]) (Target.add targets kind e.name e.useHeaderRoutes) := by
  by_cases hold : (kind, e.name) ∈ targets.map identity
  · exact h.add_old hold
  · exact h.add_new hold

/-- Any number of mentions of one kind keeps the targets canonical. -/
theorem foldl_add (h : Canonical m targets) (kind : RouteKind) (es : List RouteEntry) :
    Canonical (m.extend kind es)
      (es.foldl (fun ts e => Target.add ts kind e.name e.useHeaderRoutes) targets) := by
  induction es generalizing m targets with
  | nil => simpa using h
  | cons e es ih => simpa [Mentions.extend_extend] using ih (h.add kind e)

theorem addDiscovered (h : Canonical m targets) (kind : RouteKind) (names : List String) :
    Canonical (m.extend kind (names.map (⟨·, true⟩)))
      (Target.addDiscovered targets kind names) := by
  have hfold := h.foldl_add kind (names.map (⟨·, true⟩))
  rwa [List.foldl_map] at hfold

/-- What is mentioned makes the targets. -/
theorem mem_of_mem {targets' : List Target} (h : Canonical m targets)
    (h' : Canonical m targets') {t : Target} (ht : t ∈ targets) : t ∈ targets' := by
  obtain ⟨t', ht', hid⟩ := List.mem_map.1 ((h'.mem_iff t.kind t.name).2 (h.mentioned ht))
  obtain ⟨hkind, hname⟩ := Prod.mk.injEq .. ▸ hid
  have huse : t'.useHeaderRoutes = t.useHeaderRoutes := Bool.eq_iff_iff.2 <| by
    rw [h'.useHeaderRoutes_iff t' ht', h.useHeaderRoutes_iff t ht, hkind, hname]
  cases t
  cases t'
  cases hkind
  cases hname
  cases huse
  exact ht'

/-- There is one canonical list of targets. -/
theorem unique (h : Canonical m targets) {targets' : List Target} (h' : Canonical m targets') :
    targets' = targets := by
  have hperm : targets'.Perm targets :=
    (List.perm_ext_iff_of_nodup (List.Nodup.of_map _ h'.nodup)
      (List.Nodup.of_map _ h.nodup)).2 fun _ => ⟨h'.mem_of_mem h, h.mem_of_mem h'⟩
  refine hperm.eq_of_pairwise (fun t t' _ _ hle hge => ?_) (h'.sorted.and h'.inOrder)
    (h.sorted.and h.inOrder)
  -- Of two routes of one kind only one is mentioned first.
  have hkind := RouteKind.rank_injective (Nat.le_antisymm hle.1 hge.1)
  exact absurd (hle.2 hkind) (Nat.lt_asymm (hge.2 hkind.symm))

end Canonical

end Target

/-! ### Configured routes -/

namespace Settings

/-- The mentions of routes of a kind in a configuration: the listed ones, and then the single
one. -/
def configured (s : Settings) (kind : RouteKind) : List RouteEntry :=
  (s.choice kind).listed ++ (s.single? kind).toList.map (⟨·, true⟩)

/-- All mentions of routes: those in a configuration, and then those found by lists of some
kinds. -/
def mentions (s : Settings) (found : List (RouteKind × List String)) : Mentions := fun kind =>
  s.configured kind ++ ((found.filter (·.1 = kind)).flatMap (·.2)).map (⟨·, true⟩)

variable (s : Settings)

theorem canonical_addTargets {m : Mentions} {targets : List Target}
    (h : Target.Canonical m targets) (kind : RouteKind) :
    Target.Canonical (m.extend kind (s.configured kind)) (s.addTargets targets kind) := by
  have hlisted := h.foldl_add kind (s.choice kind).listed
  unfold addTargets configured
  cases s.single? kind with
  | none => simpa using hlisted
  | some name => simpa [Mentions.extend_extend] using hlisted.add kind ⟨name, true⟩

/-- The configured targets are canonical. -/
theorem canonical_targets : Target.Canonical (s.mentions []) s.targets := by
  have hkinds := s.canonical_addTargets (s.canonical_addTargets (s.canonical_addTargets
    (s.canonical_addTargets .nil .http) .grpc) .tcp) .tls
  exact hkinds.congr fun kind => by cases kind <;> simp [mentions]

theorem canonical_addFound (found : List (RouteKind × List String)) :
    Target.Canonical (s.mentions found)
      (found.foldl (fun ts f => Target.addDiscovered ts f.1 f.2) s.targets) := by
  have hfound : ∀ {m : Mentions} {targets : List Target}, Target.Canonical m targets →
      Target.Canonical
        (fun kind => m kind ++ ((found.filter (·.1 = kind)).flatMap (·.2)).map (⟨·, true⟩))
        (found.foldl (fun ts f => Target.addDiscovered ts f.1 f.2) targets) := by
    induction found with
    | nil => exact fun h => by simpa using h
    | cons f found ih =>
      intro m targets h
      refine (ih (h.addDiscovered f.1 f.2)).congr fun kind => ?_
      by_cases hkind : kind = f.1
      · subst hkind
        simp
      · simp [hkind, Ne.symm hkind]
  exact (hfound s.canonical_targets).congr fun kind => by simp [mentions]

/-- There is a target if the configuration mentions a route. -/
theorem targets_ne_nil_iff : s.targets ≠ [] ↔ ∃ kind, s.configured kind ≠ [] := by
  have hmem := s.canonical_targets.mem_iff
  simp only [mentions, List.filter_nil, List.flatMap_nil, List.map_nil, List.append_nil] at hmem
  constructor
  · intro hne
    obtain ⟨t, ht⟩ := List.exists_mem_of_ne_nil _ hne
    have hname := (hmem t.kind t.name).1 (List.mem_map.2 ⟨t, ht, rfl⟩)
    exact ⟨t.kind, fun hnil => by simp [hnil] at hname⟩
  · rintro ⟨kind, hne⟩ hnil
    obtain ⟨e, he⟩ := List.exists_mem_of_ne_nil _ hne
    have hid := (hmem kind e.name).2 (List.mem_map_of_mem he)
    rw [hnil] at hid
    cases hid

/-- A configuration is accepted if no listed route lacks a name and there is a target or a
selector. -/
theorem validate_eq_ok_iff :
    s.validate = .ok () ↔ (∀ kind, ∀ e ∈ (s.choice kind).listed, e.name ≠ "") ∧
      (s.targets ≠ [] ∨ ∃ kind, (s.choice kind).selector.isSome) := by
  have hnamed : (RouteKind.all.any fun k => (s.single? k).isSome || !(s.choice k).listed.isEmpty) ↔
      s.targets ≠ [] := by
    rw [targets_ne_nil_iff, List.any_eq_true]
    refine exists_congr fun kind => ?_
    rw [and_iff_right kind.mem_all]
    cases hsingle : s.single? kind <;> simp [configured, hsingle]
  have hselecting : (RouteKind.all.any fun k => (s.choice k).selector.isSome) ↔
      ∃ kind, (s.choice kind).selector.isSome := by
    rw [List.any_eq_true]
    exact exists_congr fun kind => and_iff_right kind.mem_all
  have hunnamed :
      (RouteKind.all.find? fun k => (s.choice k).listed.any fun e => e.name = "") = none ↔
        ∀ kind, ∀ e ∈ (s.choice kind).listed, e.name ≠ "" := by
    rw [List.find?_eq_none]
    simp [RouteKind.mem_all]
  rw [← hnamed, ← hselecting, ← hunnamed]
  unfold validate
  generalize (RouteKind.all.any fun k => (s.single? k).isSome || !(s.choice k).listed.isEmpty) =
    named
  generalize (RouteKind.all.any fun k => (s.choice k).selector.isSome) = selecting
  generalize (RouteKind.all.find? fun k => (s.choice k).listed.any fun e => e.name = "") = unnamed
  cases named <;> cases selecting <;> cases unnamed <;> simp

end Settings

/-! ### Resolved routes -/

namespace Call

variable {α β σ : Type} {server : Server σ} {s s' : σ}

theorem run_run_bind (p : Call α) (f : α → Call β) (s : σ) :
    (p >>= f).run.run server s =
      match p.run.run server s with
      | (.ok a, s') => (f a).run.run server s'
      | (.error e, s') => (.error e, s') := by
  change Program.run server (p.run.bind _) s = _
  rw [Program.run_bind]
  rcases p.run.run server s with ⟨_ | _, s'⟩ <;> rfl

theorem run_run_ofExcept (x : Except RoutingError α) (s : σ) :
    (ofExcept x).run.run server s = (x, s) :=
  rfl

theorem run_run_ofStore (p : Program (Except StoreError α)) (s : σ) :
    (ofStore p).run.run server s =
      ((p.run server s).1.mapError .store, (p.run server s).2) :=
  Program.run_bind server p _ s

end Call

namespace Router

variable {σ : Type} (server : Server σ) (settings : Settings) (space : String)

/-- The routes of a kind that a server lists: those that the selector for the kind picks, and none
if there is no such selector. -/
def listing (kind : RouteKind) (s : σ) : Except StoreError (List String) × σ :=
  match (settings.choice kind).selector with
  | none => (.ok [], s)
  | some selector => (Store.listRoutes space kind selector).run server s

/-- The routes of several kinds that a server lists, asked for one kind after the other, unless one
of the requests fails. -/
def listings : List RouteKind → σ → Except StoreError (List (RouteKind × List String)) × σ
  | [], s => (.ok [], s)
  | kind :: kinds, s =>
    match listing server settings space kind s with
    | (.ok names, s') =>
      ((listings kinds s').1.map ((kind, names) :: ·), (listings kinds s').2)
    | (.error e, s') => (.error e, s')

/-- Discovering the routes of a kind adds those that are listed. -/
theorem run_discover (targets : List Target) (kind : RouteKind) (s : σ) :
    (discover settings space targets kind).run.run server s =
      (((listing server settings space kind s).1.mapError .store).map
        (Target.addDiscovered targets kind), (listing server settings space kind s).2) := by
  unfold discover listing
  cases (settings.choice kind).selector with
  | none => rfl
  | some selector =>
    dsimp only
    rw [Call.run_run_bind, Call.run_run_ofStore]
    rcases (Store.listRoutes space kind selector).run server s with ⟨_ | names, s'⟩ <;> rfl

/-- Discovering routes adds what is listed in the same order. -/
theorem run_foldlM_discover (kinds : List RouteKind) (targets : List Target) (s : σ) :
    (kinds.foldlM (discover settings space) targets).run.run server s =
      (((listings server settings space kinds s).1.mapError .store).map fun found =>
          found.foldl (fun ts f => Target.addDiscovered ts f.1 f.2) targets,
        (listings server settings space kinds s).2) := by
  induction kinds generalizing targets s with
  | nil => rfl
  | cons kind kinds ih =>
    rw [List.foldlM_cons, Call.run_run_bind, run_discover, listings]
    rcases listing server settings space kind s with ⟨_ | names, s'⟩
    · rfl
    · simp only [Except.mapError, Except.map, ih]
      rcases listings server settings space kinds s' with ⟨_ | found, s''⟩ <;> rfl

variable {settings}

/-- A request is resolved to the configured routes and those that are listed. -/
theorem run_resolve {rollout : Rollout}
    (hsettings : Settings.ofJson rollout.trafficRouting = .ok settings) (s : σ) :
    (resolve rollout).run.run server s =
      let listed := listings server settings (settings.namespaceOr rollout.space) RouteKind.all s
      ((listed.1.mapError .store).map fun found =>
        { space := settings.namespaceOr rollout.space
          document := settings.documentName
          settings
          targets := found.foldl (fun ts f => Target.addDiscovered ts f.1 f.2) settings.targets },
        listed.2) := by
  unfold resolve
  rw [hsettings, Call.run_run_bind, Call.run_run_ofExcept]
  dsimp only [Except.mapError]
  rw [Call.run_run_bind, run_foldlM_discover]
  rcases listings server settings (settings.namespaceOr rollout.space) RouteKind.all s with
    ⟨_ | found, s'⟩ <;> rfl

/-- Which routes a request is about: if its configuration is accepted and the lists of routes that
it asks for are all given out, its targets are canonical for what the configuration mentions and
what was listed. A configuration is accepted if no listed route lacks a name and there is a target
or a selector. -/
theorem canonical_of_resolve (rollout : Rollout)
    (hdecoded : Settings.decode.ofJson rollout.trafficRouting = .ok settings) (server : Server σ)
    (s : σ) :
    (Settings.ofJson rollout.trafficRouting = .ok settings ↔
      (∀ kind, ∀ e ∈ (settings.choice kind).listed, e.name ≠ "") ∧
        (settings.targets ≠ [] ∨ ∃ kind, (settings.choice kind).selector.isSome)) ∧
    (Settings.ofJson rollout.trafficRouting = .ok settings →
      (∀ found s', listings server settings (settings.namespaceOr rollout.space) RouteKind.all s =
          (.ok found, s') →
        ∃ plan, (resolve rollout).run.run server s = (.ok plan, s') ∧
          Target.Canonical (settings.mentions found) plan.targets) ∧
      ∀ e s', listings server settings (settings.namespaceOr rollout.space) RouteKind.all s =
          (.error e, s') →
        (resolve rollout).run.run server s = (.error (.store e), s')) := by
  constructor
  · rw [← settings.validate_eq_ok_iff, Settings.ofJson_of_decode hdecoded]
    cases settings.validate <;> simp [Except.map]
  · intro hsettings
    have hrun := run_resolve server hsettings s
    refine ⟨fun found s' hfound => ?_, fun e s' he => ?_⟩
    · rw [hfound] at hrun
      exact ⟨_, hrun, settings.canonical_addFound found⟩
    · rw [he] at hrun
      exact hrun

/-- A rollout whose configuration and selectors mention some routes more than once. -/
def overlapping : Rollout where
  name := "shop"
  space := "shop"
  canaryService := "canary"
  stableService := "stable"
  managedRoutes := []
  trafficRouting := .object [
    ("httpRoute", .string "web"),
    ("httpRouteSelector", .object []),
    ("httpRoutes", .array [
      .object [("name", .string "api")],
      .object [("name", .string "web")],
      .object [("name", .string "api"), ("useHeaderRoutes", .bool true)]]),
    ("grpcRouteSelector", .object []),
    ("tlsRoute", .string "edge"),
    ("tlsRoutes", .array [.object [("name", .string "mail")]])]

/-- A server that lists some routes of HTTP, also one twice, and one of gRPC. -/
def lister : Server Unit := fun r s =>
  match r with
  | .listRoutes _ .http _ => (.ok ["shop", "api", "shop"], s)
  | .listRoutes _ .grpc _ => (.ok ["echo"], s)
  | _ => (.error (.status 500), s)

theorem canonical_of_resolve_overlapping :
    ∃ settings found plan, Settings.decode.ofJson overlapping.trafficRouting = .ok settings ∧
      Settings.ofJson overlapping.trafficRouting = .ok settings ∧
      listings lister settings (settings.namespaceOr overlapping.space) RouteKind.all () =
        (.ok found, ()) ∧
      (resolve overlapping).run.run lister () = (.ok plan, ()) ∧
      Target.Canonical (settings.mentions found) plan.targets ∧
      plan.targets = [⟨.http, "api", true⟩, ⟨.http, "web", true⟩, ⟨.http, "shop", true⟩,
        ⟨.grpc, "echo", true⟩, ⟨.tls, "mail", false⟩, ⟨.tls, "edge", true⟩] := by
  obtain ⟨-, hresolve⟩ := canonical_of_resolve overlapping rfl lister ()
  obtain ⟨plan, hplan, hcanonical⟩ := (hresolve rfl).1 _ _ rfl
  exact ⟨_, _, plan, rfl, rfl, rfl, hplan, hcanonical, by cases hplan; decide +kernel⟩

end Router

end CanaryRouting
