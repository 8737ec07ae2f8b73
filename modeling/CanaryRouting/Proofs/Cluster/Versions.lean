import CanaryRouting.Cluster.Faults

/-!
# Versions of stored objects

A cluster is well formed when every object is stored under the kind, namespace and name that it
carries, with a version that has been given out (`Cluster.WellFormed`). An update that carries a
version is then either refused, and changes nothing, or replaces an object of just this version
(`respond_updateRoute_cases`, `respond_updateDocument_cases`).

Versions are never given out twice. So a caller who has once read an object knows what is stored
as long as the stored version is the one it read: `Saw` says that, and no write can make it false
(`Saw.putRoute`, `Saw.putDocument`).
-/

namespace CanaryRouting

/-! ### Version texts -/

/-- The text of the version with a number. -/
def versionText (n : Nat) : String := "v" ++ toString n

theorem versionText_injective {m n : Nat} (h : versionText m = versionText n) : m = n := by
  have hlist : (toString m).toList = (toString n).toList := by
    have := congrArg String.toList h
    simpa [versionText] using this
  rw [Nat.toString_eq_ofList_toDigits, Nat.toString_eq_ofList_toDigits, String.toList_ofList,
    String.toList_ofList] at hlist
  rw [← Nat.ofDigitChars_ten_toDigits (n := m), hlist, Nat.ofDigitChars_ten_toDigits]

/-! ### Addresses -/

/-- The route carries the kind, the namespace and the name of the key. -/
structure Route.IsAt (r : Route) (key : RouteKey) : Prop where
  /-- The kind. -/
  kind : r.kind = key.kind
  /-- The namespace. -/
  space : r.metadata.space = some key.space
  /-- The name. -/
  name : r.name = key.name

/-- The document carries the namespace and the name of the key. -/
structure Document.IsAt (d : Document) (key : DocumentKey) : Prop where
  /-- The namespace. -/
  space : d.metadata.space = some key.space
  /-- The name. -/
  name : d.name = key.name

/-- The version of a route. -/
def Route.version (r : Route) : Option String := r.metadata.resourceVersion

/-- The version of a document. -/
def Document.version (d : Document) : Option String := d.metadata.resourceVersion

theorem Route.IsAt.withVersion {r : Route} {key : RouteKey} (h : r.IsAt key) (v : Option String) :
    (r.withVersion v).IsAt key := ⟨h.kind, h.space, h.name⟩

theorem Document.IsAt.withVersion {d : Document} {key : DocumentKey} (h : d.IsAt key)
    (v : Option String) : (d.withVersion v).IsAt key := ⟨h.space, h.name⟩

@[simp] theorem Route.version_withVersion (r : Route) (v : Option String) :
    (r.withVersion v).version = v := rfl

@[simp] theorem Document.version_withVersion (d : Document) (v : Option String) :
    (d.withVersion v).version = v := rfl

@[simp] theorem Route.unversioned_withVersion (r : Route) (v : Option String) :
    (r.withVersion v).unversioned = r.unversioned := rfl

theorem Route.rules_eq_of_unversioned {r r' : Route} (h : r.unversioned = r'.unversioned) :
    r.rules = r'.rules := by
  have := congrArg Route.rules h
  exact this

@[simp] theorem Route.rules_withVersion (r : Route) (v : Option String) :
    (r.withVersion v).rules = r.rules := rfl

@[simp] theorem Document.text?_withVersion (d : Document) (v : Option String) (key : String) :
    (d.withVersion v).text? key = d.text? key := rfl

namespace Cluster

variable {c c' : Cluster}

/-! ### Storing -/

/-- The version has been given out. -/
def Issued (c : Cluster) (version : Option String) : Prop :=
  ∃ n ≤ c.versions, version = some (versionText n)

/-- Every object is stored where it says, with a version that has been given out. -/
structure WellFormed (c : Cluster) : Prop where
  /-- Routes are stored under the kind, namespace and name that they carry. -/
  route_isAt : ∀ {key r}, c.routes.get? key = some r → r.IsAt key
  /-- The versions of routes have been given out. -/
  route_issued : ∀ {key r}, c.routes.get? key = some r → c.Issued r.version
  /-- Documents are stored under the namespace and name that they carry. -/
  document_isAt : ∀ {key d}, c.documents.get? key = some d → d.IsAt key
  /-- The versions of documents have been given out. -/
  document_issued : ∀ {key d}, c.documents.get? key = some d → c.Issued d.version

/-- An empty cluster is well formed. -/
theorem WellFormed.empty : WellFormed {} where
  route_isAt h := nomatch h
  route_issued h := nomatch h
  document_isAt h := nomatch h
  document_issued h := nomatch h

/-- The version that is given out next. -/
def fresh (c : Cluster) : Option String := some (versionText (c.versions + 1))

/-- The cluster with a route stored under a key. -/
def putRoute (c : Cluster) (key : RouteKey) (r : Route) : Cluster :=
  { c with routes := c.routes.insert key (r.withVersion c.fresh), versions := c.versions + 1 }

/-- The cluster with a document stored under a key. -/
def putDocument (c : Cluster) (key : DocumentKey) (d : Document) : Cluster :=
  { c with
    documents := c.documents.insert key (d.withVersion c.fresh), versions := c.versions + 1 }

theorem storeRoute_eq {r : Route} {key : RouteKey} (h : r.IsAt key) :
    Holdings.storeRoute .plain c key r = c.putRoute key r := by
  have hstamp : r.metadata.stamp c.nextVersion = (r.withVersion c.fresh).metadata := by
    simp only [Metadata.stamp, h.space, Option.getD_some]
    exact congrArg (fun s => { r.metadata with space := s, resourceVersion := c.fresh }) h.space.symm
  simp only [Holdings.storeRoute, Form.plain, hstamp]
  rfl

theorem storeDocument_eq {d : Document} {key : DocumentKey} (h : d.IsAt key) :
    Holdings.storeDocument .plain c key d = c.putDocument key d := by
  have hstamp : d.metadata.stamp c.nextVersion = (d.withVersion c.fresh).metadata := by
    simp only [Metadata.stamp, h.space, Option.getD_some]
    exact congrArg (fun s => { d.metadata with space := s, resourceVersion := c.fresh }) h.space.symm
  simp only [Holdings.storeDocument, Form.plain, hstamp]
  rfl

theorem get?_putRoute (key key' : RouteKey) (r : Route) :
    (c.putRoute key r).routes.get? key' =
      if key = key' then some (r.withVersion c.fresh) else c.routes.get? key' :=
  KeyMap.get?_insert _ _ _ _

@[simp] theorem get?_putRoute_self (key : RouteKey) (r : Route) :
    (c.putRoute key r).routes.get? key = some (r.withVersion c.fresh) :=
  KeyMap.get?_insert_self _ _ _

theorem get?_putRoute_of_ne {key key' : RouteKey} (h : key' ≠ key) (r : Route) :
    (c.putRoute key r).routes.get? key' = c.routes.get? key' := by
  rw [get?_putRoute, if_neg (Ne.symm h)]

theorem get?_putDocument (key key' : DocumentKey) (d : Document) :
    (c.putDocument key d).documents.get? key' =
      if key = key' then some (d.withVersion c.fresh) else c.documents.get? key' :=
  KeyMap.get?_insert _ _ _ _

@[simp] theorem get?_putDocument_self (key : DocumentKey) (d : Document) :
    (c.putDocument key d).documents.get? key = some (d.withVersion c.fresh) :=
  KeyMap.get?_insert_self _ _ _

theorem get?_putDocument_of_ne {key key' : DocumentKey} (h : key' ≠ key) (d : Document) :
    (c.putDocument key d).documents.get? key' = c.documents.get? key' := by
  rw [get?_putDocument, if_neg (Ne.symm h)]

@[simp] theorem documents_putRoute (key : RouteKey) (r : Route) :
    (c.putRoute key r).documents = c.documents := rfl

@[simp] theorem routes_putDocument (key : DocumentKey) (d : Document) :
    (c.putDocument key d).routes = c.routes := rfl

theorem Issued.mono {v : Option String} (h : c.Issued v) (hle : c.versions ≤ c'.versions) :
    c'.Issued v :=
  let ⟨n, hn, hv⟩ := h
  ⟨n, Nat.le_trans hn hle, hv⟩

theorem Issued.ne_fresh {v : Option String} (h : c.Issued v) : v ≠ c.fresh := by
  obtain ⟨n, hn, rfl⟩ := h
  intro e
  have := versionText_injective (Option.some.inj e)
  omega

theorem Issued.ne_none {v : Option String} (h : c.Issued v) : v ≠ none := by
  obtain ⟨n, -, rfl⟩ := h
  simp

theorem issued_fresh_putRoute (key : RouteKey) (r : Route) : (c.putRoute key r).Issued c.fresh :=
  ⟨c.versions + 1, Nat.le_refl _, rfl⟩

theorem issued_fresh_putDocument (key : DocumentKey) (d : Document) :
    (c.putDocument key d).Issued c.fresh :=
  ⟨c.versions + 1, Nat.le_refl _, rfl⟩

theorem WellFormed.putRoute (h : c.WellFormed) {key : RouteKey} {r : Route} (hr : r.IsAt key) :
    (c.putRoute key r).WellFormed where
  route_isAt {key' r'} hget := by
    rw [get?_putRoute] at hget
    split at hget
    · next e => cases hget; exact e ▸ hr.withVersion _
    · exact h.route_isAt hget
  route_issued {key' r'} hget := by
    rw [get?_putRoute] at hget
    split at hget
    · cases hget; exact issued_fresh_putRoute key r
    · exact (h.route_issued hget).mono (Nat.le_succ _)
  document_isAt hget := h.document_isAt hget
  document_issued hget := (h.document_issued hget).mono (Nat.le_succ _)

theorem WellFormed.putDocument (h : c.WellFormed) {key : DocumentKey} {d : Document}
    (hd : d.IsAt key) : (c.putDocument key d).WellFormed where
  route_isAt hget := h.route_isAt hget
  route_issued hget := (h.route_issued hget).mono (Nat.le_succ _)
  document_isAt {key' d'} hget := by
    rw [get?_putDocument] at hget
    split at hget
    · next e => cases hget; exact e ▸ hd.withVersion _
    · exact h.document_isAt hget
  document_issued {key' d'} hget := by
    rw [get?_putDocument] at hget
    split at hget
    · cases hget; exact issued_fresh_putDocument key d
    · exact (h.document_issued hget).mono (Nat.le_succ _)

/-! ### What callers have seen -/

/-- The route was once stored under the key, and still is if the stored version is its. -/
structure Saw (c : Cluster) (key : RouteKey) (r : Route) : Prop where
  /-- It carries the key. -/
  isAt : r.IsAt key
  /-- Its version has been given out. -/
  issued : c.Issued r.version
  /-- If the stored version is its version, it is what is stored. -/
  eq : ∀ {x}, c.routes.get? key = some x → x.version = r.version → x = r

/-- The document was once stored under the key, and still is if the stored version is its. -/
structure SawDocument (c : Cluster) (key : DocumentKey) (d : Document) : Prop where
  /-- It carries the key. -/
  isAt : d.IsAt key
  /-- Its version has been given out. -/
  issued : c.Issued d.version
  /-- If the stored version is its version, it is what is stored. -/
  eq : ∀ {x}, c.documents.get? key = some x → x.version = d.version → x = d

theorem WellFormed.saw (h : c.WellFormed) {key : RouteKey} {r : Route}
    (hr : c.routes.get? key = some r) : c.Saw key r :=
  ⟨h.route_isAt hr, h.route_issued hr, fun hx _ => Option.some.inj (hx.symm.trans hr)⟩

theorem WellFormed.sawDocument (h : c.WellFormed) {key : DocumentKey} {d : Document}
    (hd : c.documents.get? key = some d) : c.SawDocument key d :=
  ⟨h.document_isAt hd, h.document_issued hd, fun hx _ => Option.some.inj (hx.symm.trans hd)⟩

theorem Saw.putRoute {key key' : RouteKey} {r : Route} (h : c.Saw key r) (r' : Route) :
    (c.putRoute key' r').Saw key r where
  isAt := h.isAt
  issued := h.issued.mono (Nat.le_succ _)
  eq {x} hx hv := by
    rw [get?_putRoute] at hx
    split at hx
    · cases hx; exact absurd hv.symm h.issued.ne_fresh
    · exact h.eq hx hv

theorem Saw.putDocument {key : RouteKey} {key' : DocumentKey} {r : Route} (h : c.Saw key r)
    (d : Document) : (c.putDocument key' d).Saw key r where
  isAt := h.isAt
  issued := h.issued.mono (Nat.le_succ _)
  eq hx hv := h.eq hx hv

theorem SawDocument.putRoute {key : DocumentKey} {key' : RouteKey} {d : Document}
    (h : c.SawDocument key d) (r : Route) : (c.putRoute key' r).SawDocument key d where
  isAt := h.isAt
  issued := h.issued.mono (Nat.le_succ _)
  eq hx hv := h.eq hx hv

theorem SawDocument.putDocument {key key' : DocumentKey} {d : Document} (h : c.SawDocument key d)
    (d' : Document) : (c.putDocument key' d').SawDocument key d where
  isAt := h.isAt
  issued := h.issued.mono (Nat.le_succ _)
  eq {x} hx hv := by
    rw [get?_putDocument] at hx
    split at hx
    · cases hx; exact absurd hv.symm h.issued.ne_fresh
    · exact h.eq hx hv

/-! ### Answers -/

/-- A request fails, or is answered as the server answers it. -/
theorem respondUnless_cases (c : Cluster) (failure : Option ApiFailure) (r : Request) :
    (∃ e, c.respondUnless failure r = (.error e, c)) ∨
      c.respondUnless failure r = Cluster.respond r c := by
  cases failure with
  | none => exact .inr rfl
  | some e => exact .inl ⟨e, rfl⟩

theorem isNamed_of_name_ne {r : Request} (h : r.name ≠ "") : r.isNamed = true := by
  simp [Request.isNamed, h]

theorem respond_eq_answer {r : Request} (h : r.isNamed = true) (c : Cluster) :
    Cluster.respond r c = Holdings.answer .plain r.name r c := if_pos h

theorem respond_unnamed {r : Request} (h : r.isNamed = false) (c : Cluster) :
    Cluster.respond r c = (.error .unsent, c) := if_neg (by simp [h])

/-- A stored route that has a name can be read. -/
theorem respond_getRoute {key : RouteKey} {r : Route} (hname : key.name ≠ "")
    (hr : c.routes.get? key = some r) :
    Cluster.respond (.getRoute key.space key.kind key.name) c = (.ok r, c) := by
  rw [respond_eq_answer (r := .getRoute key.space key.kind key.name) (isNamed_of_name_ne hname)]
  change (Storage.answer Form.plain.routes key (c.routes.get? key), c) = _
  rw [hr]
  rfl

theorem respond_getRoute_cases (c : Cluster) (key : RouteKey) :
    (∃ e, Cluster.respond (.getRoute key.space key.kind key.name) c = (.error e, c)) ∨
      ∃ r, key.name ≠ "" ∧ c.routes.get? key = some r ∧
        Cluster.respond (.getRoute key.space key.kind key.name) c = (.ok r, c) := by
  by_cases hname : key.name = ""
  · exact .inl ⟨.unsent, respond_unnamed
      (by simp [Request.isNamed, Request.hasNameInPath, Request.name, hname]) c⟩
  · cases hr : c.routes.get? key with
    | none =>
      refine .inl ⟨.status 404, ?_⟩
      rw [respond_eq_answer (r := .getRoute key.space key.kind key.name)
        (isNamed_of_name_ne hname)]
      change (Storage.answer Form.plain.routes key (c.routes.get? key), c) = _
      rw [hr]
      rfl
    | some r => exact .inr ⟨r, hname, rfl, respond_getRoute hname hr⟩

/-- Reading a document succeeds if it is stored under a name; otherwise there is none, or it has
no name. -/
theorem respond_getDocument {key : DocumentKey} (hname : key.name ≠ "") :
    Cluster.respond (.getDocument key.space key.name) c =
      ((c.documents.get? key).elim (.error (.status 404)) .ok, c) := by
  rw [respond_eq_answer (r := .getDocument key.space key.name) (isNamed_of_name_ne hname)]
  change (Storage.answer Form.plain.documents key (c.documents.get? key), c) = _
  cases c.documents.get? key <;> rfl

theorem respond_getDocument_cases (c : Cluster) (key : DocumentKey) :
    (∃ e, Cluster.respond (.getDocument key.space key.name) c = (.error e, c)) ∨
      ∃ d, c.documents.get? key = some d ∧
        Cluster.respond (.getDocument key.space key.name) c = (.ok d, c) := by
  by_cases hname : key.name = ""
  · exact .inl ⟨.unsent, respond_unnamed
      (by simp [Request.isNamed, Request.hasNameInPath, Request.name, hname]) c⟩
  · rw [respond_getDocument hname]
    cases hd : c.documents.get? key with
    | none => exact .inl ⟨_, rfl⟩
    | some d => exact .inr ⟨d, rfl, rfl⟩

/-- A cluster that stores routes as they are lists those that a query picks. -/
theorem listRoutes_eq (c : Cluster) (space : String) (kind : RouteKind) (query : Query) :
    c.listRoutes .plain space kind query = .ok ((c.routes.entries.filter fun e =>
      e.1.kind = kind && e.1.space = space &&
        query.selects (Form.plain.routes.label? e.2)).map fun e => e.2.name) := by
  have hread : ∀ es : List (RouteKey × Route),
      (es.mapM fun e => Form.plain.routes.read? e.1 e.2) = some (es.map Prod.snd) := fun es =>
    List.mapM_pure
  rw [Holdings.listRoutes]
  simp only [hread, List.map_map]
  rfl

theorem respond_listRoutes (c : Cluster) (space : String) (kind : RouteKind)
    (selector : LabelSelector) :
    (Cluster.respond (.listRoutes space kind selector) c).2 = c := by
  rw [respond_eq_answer (by simp [Request.isNamed, Request.hasNameInPath])]
  simp only [Holdings.answer]
  split <;> rfl

/-- The document that a creation stores. -/
def created (key : DocumentKey) : Document :=
  { metadata := { name := some key.name, space := some key.space } }

theorem created_isAt (key : DocumentKey) : (created key).IsAt key := ⟨rfl, rfl⟩

theorem respond_createDocument {key : DocumentKey} (h : c.documents.get? key = none) :
    Cluster.respond (.createDocument key.space key.name) c =
      (.ok ((created key).withVersion c.fresh), c.putDocument key (created key)) := by
  rw [respond_eq_answer (by simp [Request.isNamed, Request.hasNameInPath])]
  change Holdings.createDocument .plain c key = _
  have hnone : ¬ c.documents.contains key = true := by simp [KeyMap.contains, h]
  rw [Holdings.createDocument, if_neg hnone]
  change (Storage.answer Form.plain.documents key
      ((Holdings.storeDocument .plain c key (created key)).documents.get? key),
    Holdings.storeDocument .plain c key (created key)) = _
  rw [storeDocument_eq (created_isAt key), get?_putDocument_self]
  rfl

theorem respond_createDocument_cases (c : Cluster) (key : DocumentKey) :
    (∃ e, Cluster.respond (.createDocument key.space key.name) c = (.error e, c)) ∨
      c.documents.get? key = none ∧
        Cluster.respond (.createDocument key.space key.name) c =
          (.ok ((created key).withVersion c.fresh), c.putDocument key (created key)) := by
  cases h : c.documents.get? key with
  | none => exact .inr ⟨rfl, respond_createDocument h⟩
  | some d =>
    refine .inl ⟨.status 409, ?_⟩
    rw [respond_eq_answer (by simp [Request.isNamed, Request.hasNameInPath])]
    change Holdings.createDocument .plain c key = _
    have hsome : c.documents.contains key = true := by simp [KeyMap.contains, h]
    exact if_pos hsome

/-! ### Updates -/

theorem refusal?_of_eq {κ α σ : Type} (f : Storage κ α σ) {sent : Metadata} {x : σ}
    (h : sent.resourceVersion = f.version? x) : f.refusal? sent (some x) = none := by
  rw [Storage.refusal?, if_pos]
  exact Bool.or_eq_true_iff.2 (Or.inr (decide_eq_true h))

theorem refusal?_of_ne {κ α σ : Type} (f : Storage κ α σ) {sent : Metadata} {x : σ}
    (hsent : sent.resourceVersion ≠ none) (h : sent.resourceVersion ≠ f.version? x) :
    f.refusal? sent (some x) = some 409 := by
  rw [Storage.refusal?, if_neg]
  rw [Bool.or_eq_true_iff, not_or]
  exact ⟨by simpa [Option.isNone_iff_eq_none] using hsent, by simpa using h⟩

theorem respond_updateRoute_eq {key : RouteKey} {r : Route} (hr : r.IsAt key)
    (hname : key.name ≠ "") :
    Cluster.respond (.updateRoute key.space r) c = Holdings.updateRoute .plain c key r := by
  have hsent : (Request.updateRoute key.space r).name ≠ "" := fun e => hname (hr.name.symm.trans e)
  rw [respond_eq_answer (isNamed_of_name_ne hsent)]
  change Holdings.updateRoute .plain c ⟨r.kind, key.space, r.name⟩ r = _
  rw [hr.kind, hr.name]

/-- An update that carries the stored version replaces what is stored. -/
theorem respond_updateRoute {key : RouteKey} {r x : Route} (hr : r.IsAt key)
    (hname : key.name ≠ "") (hx : c.routes.get? key = some x) (hv : r.version = x.version) :
    Cluster.respond (.updateRoute key.space r) c =
      (.ok (r.withVersion c.fresh), c.putRoute key r) := by
  rw [respond_updateRoute_eq hr hname]
  rw [Holdings.updateRoute, hx, refusal?_of_eq Form.plain.routes hv]
  change (Storage.answer Form.plain.routes key
      ((Holdings.storeRoute .plain c key r).routes.get? key),
    Holdings.storeRoute .plain c key r) = _
  rw [storeRoute_eq hr, get?_putRoute_self]
  rfl

/-- An update that carries a version is refused, or it carries the stored version and replaces
what is stored. -/
theorem respond_updateRoute_cases (c : Cluster) {key : RouteKey} {r : Route} (hr : r.IsAt key)
    (hv : r.version ≠ none) :
    (∃ e, Cluster.respond (.updateRoute key.space r) c = (.error e, c)) ∨
      ∃ x, c.routes.get? key = some x ∧ x.version = r.version ∧ key.name ≠ "" ∧
        Cluster.respond (.updateRoute key.space r) c =
          (.ok (r.withVersion c.fresh), c.putRoute key r) := by
  by_cases hname : key.name = ""
  · refine .inl ⟨.unsent, respond_unnamed ?_ c⟩
    simp [Request.isNamed, Request.hasNameInPath, Request.name, hr.name, hname]
  · cases hx : c.routes.get? key with
    | none =>
      refine .inl ⟨.status 404, ?_⟩
      rw [respond_updateRoute_eq hr hname, Holdings.updateRoute, hx]
      rfl
    | some x =>
      by_cases he : r.version = x.version
      · exact .inr ⟨x, rfl, he.symm, hname, respond_updateRoute hr hname hx he⟩
      · refine .inl ⟨.status 409, ?_⟩
        rw [respond_updateRoute_eq hr hname, Holdings.updateRoute, hx,
          refusal?_of_ne Form.plain.routes hv he]
        rfl

theorem respond_updateDocument_eq {key : DocumentKey} {d : Document} (hd : d.IsAt key)
    (hname : key.name ≠ "") :
    Cluster.respond (.updateDocument key.space d) c = Holdings.updateDocument .plain c key d := by
  have hsent : (Request.updateDocument key.space d).name ≠ "" := fun e =>
    hname (hd.name.symm.trans e)
  rw [respond_eq_answer (isNamed_of_name_ne hsent)]
  change Holdings.updateDocument .plain c ⟨key.space, d.name⟩ d = _
  rw [hd.name]

/-- An update that carries the stored version replaces what is stored. -/
theorem respond_updateDocument {key : DocumentKey} {d x : Document} (hd : d.IsAt key)
    (hname : key.name ≠ "") (hx : c.documents.get? key = some x) (hv : d.version = x.version) :
    Cluster.respond (.updateDocument key.space d) c =
      (.ok (d.withVersion c.fresh), c.putDocument key d) := by
  rw [respond_updateDocument_eq hd hname]
  rw [Holdings.updateDocument, hx, refusal?_of_eq Form.plain.documents hv]
  change (Storage.answer Form.plain.documents key
      ((Holdings.storeDocument .plain c key d).documents.get? key),
    Holdings.storeDocument .plain c key d) = _
  rw [storeDocument_eq hd, get?_putDocument_self]
  rfl

/-- An update that carries a version is refused, or it carries the stored version and replaces
what is stored. -/
theorem respond_updateDocument_cases (c : Cluster) {key : DocumentKey} {d : Document}
    (hd : d.IsAt key) (hv : d.version ≠ none) :
    (∃ e, Cluster.respond (.updateDocument key.space d) c = (.error e, c)) ∨
      ∃ x, c.documents.get? key = some x ∧ x.version = d.version ∧ key.name ≠ "" ∧
        Cluster.respond (.updateDocument key.space d) c =
          (.ok (d.withVersion c.fresh), c.putDocument key d) := by
  by_cases hname : key.name = ""
  · refine .inl ⟨.unsent, respond_unnamed ?_ c⟩
    simp [Request.isNamed, Request.hasNameInPath, Request.name, hd.name, hname]
  · cases hx : c.documents.get? key with
    | none =>
      refine .inl ⟨.status 404, ?_⟩
      rw [respond_updateDocument_eq hd hname, Holdings.updateDocument, hx]
      rfl
    | some x =>
      by_cases he : d.version = x.version
      · exact .inr ⟨x, rfl, he.symm, hname, respond_updateDocument hd hname hx he⟩
      · refine .inl ⟨.status 409, ?_⟩
        rw [respond_updateDocument_eq hd hname, Holdings.updateDocument, hx,
          refusal?_of_ne Form.plain.documents hv he]
        rfl

end Cluster

end CanaryRouting
