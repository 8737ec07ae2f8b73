import CanaryRouting.Cluster.Basic
import Mathlib.Data.List.Forall2

/-!
# Servers that store objects differently

What a caller learns of a stored object is the object that is read from it; a server also looks at
its version and at its labels. Two servers that agree on these (`Storage.Agree`) for everything that
they hold (`Holdings.Agree`) give the same answers, and agree afterwards, as long as the objects
that are sent are such that both store them under the same key, and alike (`Storage.Keep`).
-/

namespace CanaryRouting

/-! ### Maps with related values -/

namespace KeyMap

variable {κ α β : Type} [KeyOrder κ] {p : κ → α → β → Prop} {m : KeyMap κ α} {n : KeyMap κ β}

/-- The maps have the same keys, and related values under each. -/
def Related (p : κ → α → β → Prop) (m : KeyMap κ α) (n : KeyMap κ β) : Prop :=
  List.Forall₂ (fun e e' => e.1 = e'.1 ∧ p e.1 e.2 e'.2) m.entries n.entries

theorem Related.get? (h : m.Related p n) (k : κ) : Option.Rel (p k) (m.get? k) (n.get? k) := by
  unfold Related at h
  rw [KeyMap.get?, KeyMap.get?]
  generalize m.entries = es, n.entries = es' at h
  induction h with
  | nil => exact .none
  | @cons e e' _ _ he _ ih =>
    rw [lookupIn, lookupIn, ← he.1]
    split
    · next hk => exact .some (hk ▸ he.2)
    · exact ih

theorem Related.contains (h : m.Related p n) (k : κ) : m.contains k = n.contains k := by
  have hrel := h.get? k
  rw [KeyMap.contains, KeyMap.contains]
  generalize m.get? k = x at hrel ⊢
  generalize n.get? k = y at hrel ⊢
  cases hrel <;> rfl

theorem Related.insert (h : m.Related p n) {k : κ} {x : α} {y : β} (hxy : p k x y) :
    (m.insert k x).Related p (n.insert k y) := by
  unfold Related at h
  change List.Forall₂ _ (insertIn k x m.entries) (insertIn k y n.entries)
  generalize m.entries = es, n.entries = es' at h
  induction h with
  | nil => exact .cons ⟨rfl, hxy⟩ .nil
  | @cons e e' _ _ he hrest ih =>
    rw [insertIn, insertIn, ← he.1]
    split
    · exact .cons ⟨rfl, hxy⟩ (.cons he hrest)
    · split
      · exact .cons he ih
      · exact .cons ⟨rfl, hxy⟩ hrest

/-- A map is related to what becomes of its values. -/
theorem related_mapValues {f : κ → β → α} (h : ∀ k y, n.get? k = some y → p k (f k y) y) :
    (n.mapValues f).Related p n :=
  List.forall₂_map_left_iff.2 (List.forall₂_same.2 fun e he => ⟨rfl, h e.1 e.2 (mem_entries.1 he)⟩)

end KeyMap

/-! ### Stored objects -/

namespace Storage

variable {κ α σ τ : Type} {f : Storage κ α σ} {g : Storage κ α τ} {key : κ}

/-- What is stored under a key is read as the same object, and has the same version and labels. -/
structure Agree (f : Storage κ α σ) (g : Storage κ α τ) (key : κ) (x : σ) (y : τ) : Prop where
  /-- The object. -/
  read : f.read? key x = g.read? key y
  /-- The version. -/
  version : f.version? x = g.version? y
  /-- The labels. -/
  label : f.label? x = g.label? y

/-- An object that is sent to a key is stored there, and alike. -/
structure Keep (f : Storage κ α σ) (g : Storage κ α τ) (key : κ) (a : α) : Prop where
  /-- One server stores it under the key. -/
  place : ∀ version, f.place key (f.stamp version (f.keep a)) = key
  /-- So does the other. -/
  place' : ∀ version, g.place key (g.stamp version (g.keep a)) = key
  /-- What they store agrees. -/
  agree : ∀ version, f.Agree g key (f.stamp version (f.keep a)) (g.stamp version (g.keep a))

theorem answer_eq {x? : Option σ} {y? : Option τ} (h : Option.Rel (f.Agree g key) x? y?) :
    f.answer key x? = g.answer key y? := by
  cases h with
  | none => rfl
  | some hagree => rw [answer, answer, hagree.read]

theorem refusal?_eq (sent : Metadata) {x? : Option σ} {y? : Option τ}
    (h : Option.Rel (f.Agree g key) x? y?) : f.refusal? sent x? = g.refusal? sent y? := by
  cases h with
  | none => rfl
  | some hagree => rw [refusal?, refusal?, hagree.version]

end Storage

/-! ### Servers -/

namespace Holdings

variable {ρ δ ρ' δ' : Type} {f : Form ρ δ} {g : Form ρ' δ'} {h : Holdings ρ δ}
  {c : Holdings ρ' δ'}

/-- Two servers agree on everything that they hold, and have given out as many versions. -/
structure Agree (f : Form ρ δ) (g : Form ρ' δ') (h : Holdings ρ δ) (c : Holdings ρ' δ') :
    Prop where
  /-- The routes. -/
  routes : h.routes.Related (f.routes.Agree g.routes) c.routes
  /-- The documents. -/
  documents : h.documents.Related (f.documents.Agree g.documents) c.documents
  /-- The versions. -/
  versions : h.versions = c.versions

namespace Agree

variable (hagree : Agree f g h c)

include hagree

theorem nextVersion : h.nextVersion = c.nextVersion := by
  rw [Holdings.nextVersion, Holdings.nextVersion, hagree.versions]

theorem storeRoute {key : RouteKey} {r : Route} (hkeep : f.routes.Keep g.routes key r) :
    Agree f g (h.storeRoute f key (f.routes.keep r)) (c.storeRoute g key (g.routes.keep r)) where
  routes := by
    simp only [Holdings.storeRoute, hkeep.place, hkeep.place', hagree.nextVersion]
    exact hagree.routes.insert (hkeep.agree _)
  documents := hagree.documents
  versions := congrArg (· + 1) hagree.versions

theorem storeDocument {key : DocumentKey} {d : Document}
    (hkeep : f.documents.Keep g.documents key d) :
    Agree f g (h.storeDocument f key (f.documents.keep d))
      (c.storeDocument g key (g.documents.keep d)) where
  routes := hagree.routes
  documents := by
    simp only [Holdings.storeDocument, hkeep.place, hkeep.place', hagree.nextVersion]
    exact hagree.documents.insert (hkeep.agree _)
  versions := congrArg (· + 1) hagree.versions

theorem listRoutes (space : String) (kind : RouteKind) (query : Query) :
    h.listRoutes f space kind query = c.listRoutes g space kind query := by
  have hread : ∀ {es : List (RouteKey × ρ)} {es' : List (RouteKey × ρ')},
      List.Forall₂ (fun e e' => e.1 = e'.1 ∧ f.routes.Agree g.routes e.1 e.2 e'.2) es es' →
        (es.mapM fun e => f.routes.read? e.1 e.2) = es'.mapM fun e => g.routes.read? e.1 e.2 := by
    intro es es' hes
    induction hes with
    | nil => rfl
    | cons he _ ih => rw [List.mapM_cons, List.mapM_cons, ih, ← he.1, he.2.read]
  have hpicked := List.rel_filter
    (p := fun e => e.1.kind = kind && e.1.space = space && query.selects (f.routes.label? e.2))
    (q := fun e => e.1.kind = kind && e.1.space = space && query.selects (g.routes.label? e.2))
    (fun {e e'} he => by simp only [he.1, he.2.label]) hagree.routes
  rw [Holdings.listRoutes, Holdings.listRoutes, hread hpicked]

end Agree

end Holdings

/-- What a request sends is stored by both servers under the name that it is sent to, and alike. -/
def Request.Kept {ρ δ ρ' δ' : Type} (f : Form ρ δ) (g : Form ρ' δ') (name : String) :
    Request → Prop
  | .updateRoute space route => f.routes.Keep g.routes ⟨route.kind, space, name⟩ route
  | .updateDocument space document => f.documents.Keep g.documents ⟨space, name⟩ document
  | .createDocument space _ => f.documents.Keep g.documents ⟨space, name⟩
      { metadata := { name := some name, space := some space } }
  | .getRoute .. | .listRoutes .. | .getDocument .. => True

/-- Servers that agree answer alike, and agree afterwards. -/
theorem Holdings.Agree.answer {ρ δ ρ' δ' : Type} {f : Form ρ δ} {g : Form ρ' δ'}
    {h : Holdings ρ δ} {c : Holdings ρ' δ'} (hagree : Agree f g h c) (name : String) (r : Request)
    (hkept : r.Kept f g name) :
    (h.answer f name r).1 = (c.answer g name r).1 ∧
      Agree f g (h.answer f name r).2 (c.answer g name r).2 := by
  cases r with
  | getRoute space kind _ => exact ⟨Storage.answer_eq (hagree.routes.get? _), hagree⟩
  | getDocument space _ => exact ⟨Storage.answer_eq (hagree.documents.get? _), hagree⟩
  | listRoutes space kind selector =>
    simp only [Holdings.answer]
    split
    · exact ⟨hagree.listRoutes space kind _, hagree⟩
    · exact ⟨rfl, hagree⟩
  | updateRoute space route =>
    have hrefusal :=
      Storage.refusal?_eq route.metadata (hagree.routes.get? ⟨route.kind, space, name⟩)
    simp only [Holdings.answer, Holdings.updateRoute, hrefusal]
    split
    · exact ⟨rfl, hagree⟩
    · have hstored := hagree.storeRoute hkept
      exact ⟨Storage.answer_eq (hstored.routes.get? _), hstored⟩
  | updateDocument space document =>
    have hrefusal :=
      Storage.refusal?_eq document.metadata (hagree.documents.get? ⟨space, name⟩)
    simp only [Holdings.answer, Holdings.updateDocument, hrefusal]
    split
    · exact ⟨rfl, hagree⟩
    · have hstored := hagree.storeDocument hkept
      exact ⟨Storage.answer_eq (hstored.documents.get? _), hstored⟩
  | createDocument space _ =>
    simp only [Holdings.answer, Holdings.createDocument, hagree.documents.contains]
    split
    · exact ⟨rfl, hagree⟩
    · have hstored := hagree.storeDocument hkept
      exact ⟨Storage.answer_eq (hstored.documents.get? _), hstored⟩

end CanaryRouting
