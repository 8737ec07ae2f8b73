import CanaryRouting.Proofs.Cluster.Versions
import CanaryRouting.Proofs.Registry.Text

/-!
# What a cluster records

The managed routes in the registry document of a cluster (`Cluster.registry`), the rules of a route
(`Cluster.rules`), and what the two should have to do with each other: `Cluster.Agrees` says that
every recorded position is that of a rule which was injected under the name, and that no two names
of one kind share a position in one route.
-/

namespace CanaryRouting.Cluster

variable {c : Cluster}

/-- The managed routes of a kind that the document records; without a document there are none. -/
def registry (c : Cluster) (key : DocumentKey) (kind : RouteKind) :
    Except RoutingError ManagedRoutes :=
  match c.documents.get? key with
  | none => .ok .empty
  | some d => ManagedRoutes.load d kind.registryKey

/-- The document under a key apart from its version; the one without texts if none is stored. -/
def document (c : Cluster) (key : DocumentKey) : Document :=
  ((c.documents.get? key).getD (created key)).withVersion none

/-- The route under a key is this one, apart from its version. -/
def Holds (c : Cluster) (key : RouteKey) (r : Route) : Prop :=
  ∃ stored, c.routes.get? key = some stored ∧ stored.unversioned = r.unversioned

/-- The rules of the route under a key; without a route there are none. -/
def rules (c : Cluster) (key : RouteKey) : List Rule := (c.routes.get? key).elim [] Route.rules

theorem Holds.rules_eq {key : RouteKey} {r : Route} (h : c.Holds key r) : c.rules key = r.rules := by
  obtain ⟨stored, hstored, heq⟩ := h
  rw [rules, hstored]
  exact Route.rules_eq_of_unversioned heq

/-- The version of the route under a key. -/
def routeVersion (c : Cluster) (key : RouteKey) : Option String :=
  (c.routes.get? key).bind Route.version

/-- The version of the document under a key. -/
def documentVersion (c : Cluster) (key : DocumentKey) : Option String :=
  (c.documents.get? key).bind Document.version

/-- In each kind of route the recorded positions agree with the stored rules: every position is
that of a rule which was injected under the name, its backend references apart, and no two names
share a position in one route. -/
def Agrees (c : Cluster) (key : DocumentKey) (injected : RouteKey → String → Rule → Prop) : Prop :=
  ∀ kind m, c.registry key kind = .ok m → ∀ route,
    Layout.Sound ⟨m.positions route, c.rules ⟨kind, key.space, route⟩⟩
      (injected ⟨kind, key.space, route⟩)

/-- Without a registry document nothing is recorded. -/
theorem Agrees.of_absent {key : DocumentKey} (h : c.documents.get? key = none)
    (injected : RouteKey → String → Rule → Prop) : c.Agrees key injected := by
  intro kind m hm route
  rw [registry, h] at hm
  cases hm
  exact ⟨(nomatch ·), (nomatch ·)⟩

/-! ### Routes -/

@[simp] theorem rules_putRoute_self (key : RouteKey) (r : Route) :
    (c.putRoute key r).rules key = r.rules := by
  simp [rules]

theorem rules_putRoute_of_ne {key key' : RouteKey} (h : key' ≠ key) (r : Route) :
    (c.putRoute key r).rules key' = c.rules key' := by
  simp only [rules, get?_putRoute_of_ne h]

@[simp] theorem routeVersion_putRoute_self (key : RouteKey) (r : Route) :
    (c.putRoute key r).routeVersion key = c.fresh := by
  simp [routeVersion]

theorem routeVersion_putRoute_of_ne {key key' : RouteKey} (h : key' ≠ key) (r : Route) :
    (c.putRoute key r).routeVersion key' = c.routeVersion key' := by
  simp only [routeVersion, get?_putRoute_of_ne h]

@[simp] theorem registry_putRoute (key : RouteKey) (r : Route) :
    (c.putRoute key r).registry = c.registry := rfl

@[simp] theorem documentVersion_putRoute (key : RouteKey) (r : Route) :
    (c.putRoute key r).documentVersion = c.documentVersion := rfl

/-- A version that is out of date stays out of date. -/
theorem routeVersion_putRoute_ne {key key' : RouteKey} {v : Option String} (hv : c.Issued v)
    (h : c.routeVersion key' ≠ v) (r : Route) : (c.putRoute key r).routeVersion key' ≠ v := by
  by_cases e : key' = key
  · subst e
    rw [routeVersion_putRoute_self]
    exact hv.ne_fresh.symm
  · rwa [routeVersion_putRoute_of_ne e]

/-! ### Documents -/

@[simp] theorem rules_putDocument (key : DocumentKey) (d : Document) :
    (c.putDocument key d).rules = c.rules := rfl

@[simp] theorem routeVersion_putDocument (key : DocumentKey) (d : Document) :
    (c.putDocument key d).routeVersion = c.routeVersion := rfl

@[simp] theorem documentVersion_putDocument_self (key : DocumentKey) (d : Document) :
    (c.putDocument key d).documentVersion key = c.fresh := by
  simp [documentVersion]

theorem registry_of_get? {key : DocumentKey} {d : Document} (h : c.documents.get? key = some d)
    (kind : RouteKind) : c.registry key kind = ManagedRoutes.load d kind.registryKey := by
  rw [registry, h]

theorem document_of_get? {key : DocumentKey} {d : Document} (h : c.documents.get? key = some d) :
    c.document key = d.withVersion none := by
  rw [document, h]
  rfl

@[simp] theorem document_putDocument_self (key : DocumentKey) (d : Document) :
    (c.putDocument key d).document key = d.withVersion none := by
  rw [document_of_get? (get?_putDocument_self key d)]
  rfl

@[simp] theorem document_putRoute (key : RouteKey) (r : Route) :
    (c.putRoute key r).document = c.document := rfl

@[simp] theorem load_withVersion (d : Document) (v : Option String) (key : String) :
    ManagedRoutes.load (d.withVersion v) key = ManagedRoutes.load d key :=
  ManagedRoutes.load_congr rfl

@[simp] theorem registry_putDocument_self (key : DocumentKey) (d : Document) (kind : RouteKind) :
    (c.putDocument key d).registry key kind = ManagedRoutes.load d kind.registryKey := by
  rw [registry_of_get? (get?_putDocument_self key d)]
  exact ManagedRoutes.load_congr rfl

/-- A new document records nothing. -/
theorem load_created (key : DocumentKey) (kind : RouteKind) :
    ManagedRoutes.load (created key) kind.registryKey = .ok .empty := rfl

theorem registry_eq_load (c : Cluster) (key : DocumentKey) (kind : RouteKind) :
    c.registry key kind = ManagedRoutes.load (c.document key) kind.registryKey := by
  cases hd : c.documents.get? key with
  | none => rw [registry, document, hd]; rfl
  | some d => rw [registry_of_get? hd, document_of_get? hd, load_withVersion]

/-- Recording the managed routes of one kind leaves those of the others as they are. -/
theorem registry_putDocument_store {key : DocumentKey} {d : Document} {kind kind' : RouteKind}
    (hd : c.documents.get? key = some d) (h : kind' ≠ kind) (m : ManagedRoutes) :
    (c.putDocument key (m.store d kind.registryKey)).registry key kind' =
      c.registry key kind' := by
  rw [registry_putDocument_self, registry_of_get? hd]
  exact ManagedRoutes.load_store_of_ne (fun e => h (RouteKind.registryKey_injective e)) m d

end CanaryRouting.Cluster
