import CanaryRouting.Proofs.Serial.Meeting

/-!
# Two operations side by side

One operation sets weights while another changes header routes (`Joint`). What they do to the routes
is said target by target (`Joint.weighs`, `Joint.chain`). The document is written by the second one
alone: the first one reads it as it is at that moment, its `snapshot`, and as long as the route of a
target has not been changed, the positions of the target are those of the beginning
(`Joint.placedAs`).
-/

namespace CanaryRouting

open Router

/-- The request of the event can only read. -/
def Event.Reads (e : Event) : Prop :=
  e.request.routeKey? = none ∧ e.request.documentKey? = none

theorem Event.Reads.not_writes {e : Event} (h : e.Reads) (k : RouteKey) : ¬ e.writes k := by
  simp [writes, h.1]

/-- An event that writes no document has stored none. -/
theorem Event.document?_eq_none {e : Event} (h : e.request.documentKey? = none) :
    e.document? = none := by
  obtain ⟨i, r, answer, c⟩ := e
  cases r <;> first | rfl | cases h

namespace Opens

variable {key : DocumentKey} {opening : List Event} {d : Document} {e : Event}

/-- Opening a document writes no route. -/
theorem not_writes (h : Opens key opening d) (he : e ∈ opening) (k : RouteKey) : ¬ e.writes k := by
  cases h with
  | read =>
    rw [List.mem_singleton.1 he]
    exact Bool.false_ne_true
  | create =>
    simp only [List.mem_cons, List.not_mem_nil, or_false] at he
    rcases he with rfl | rfl <;> exact Bool.false_ne_true

theorem documentKey? (h : Opens key opening d) (he : e ∈ opening) {k : DocumentKey}
    (hk : e.request.documentKey? = some k) : k = key := by
  cases h with
  | read =>
    rw [List.mem_singleton.1 he] at hk
    cases hk
  | create =>
    simp only [List.mem_cons, List.not_mem_nil, or_false] at he
    rcases he with rfl | rfl <;> cases hk
    rfl

/-- What is stored by opening a document is the document. -/
theorem eq_of_document? (h : Opens key opening d) (he : e ∈ opening) {stored : Document}
    (hstored : e.document? = some stored) : stored = d := by
  cases h with
  | read =>
    rw [List.mem_singleton.1 he] at hstored
    cases hstored
  | create =>
    simp only [List.mem_cons, List.not_mem_nil, or_false] at he
    rcases he with rfl | rfl <;> cases hstored
    rfl

end Opens

/-- The events of two operations: the first one sets the weights of some targets, with the positions
of a snapshot, and the second one changes the header routes of some targets. -/
structure Joint (rollout : Rollout) (settings : Settings) (key : DocumentKey)
    (change : HeaderChange) (desired : Int) (destinations : List WeightDestination)
    (c c' snapshot : Cluster) (es : List Event) (ts hs : List Target) : Prop where
  /-- The events lead from one cluster to the other. -/
  history : c.History es c'
  /-- The server answers the requests. -/
  genuine : ∀ e ∈ es, e.Genuine
  /-- There are two operations. -/
  callers : ∀ e ∈ es, e.caller < 2
  /-- The document has a name. -/
  named : key.name ≠ ""
  /-- The first operation. -/
  weighing : ∃ lists i answer rest,
    eventsOf 0 es = lists ++ ⟨i, .getDocument key.space key.name, answer, snapshot⟩ :: rest ∧
      (∀ e ∈ lists, e.Reads) ∧
      Weighs rollout settings key answer.toOption desired destinations ts rest
  /-- The second operation. -/
  altering : ∃ lists opening rest d d', eventsOf 1 es = lists ++ opening ++ rest ∧
    (∀ e ∈ lists, e.Reads) ∧ Opens key opening d ∧ d.IsAt key ∧
      Alters rollout change key d hs rest d'

namespace Joint

variable {rollout : Rollout} {settings : Settings} {key : DocumentKey} {change : HeaderChange}
  {desired : Int} {destinations : List WeightDestination} {c c' snapshot : Cluster}
  {es : List Event} {ts hs : List Target}

theorem caller_cases
    (h : Joint rollout settings key change desired destinations c c' snapshot es ts hs) {e : Event}
    (he : e ∈ es) : e.caller = 0 ∨ e.caller = 1 := by
  have hlt := h.callers e he
  omega

/-- The first operation sets the weights of every target once. -/
theorem weighs (h : Joint rollout settings key change desired destinations c c' snapshot es ts hs)
    (hnodup : (ts.map Target.identity).Nodup) {t : Target} (ht : t ∈ ts) :
    t.name ≠ "" ∧ ∃ route skip weighed,
      injectedRules (snapshot.documents.get? key) t = .ok skip ∧
      reweigh rollout settings desired destinations skip route = .ok weighed ∧
      Treats (t.keyIn key.space) (eventsOf 0 es) route (some weighed) := by
  obtain ⟨lists, i, answer, rest, hes, hlists, hweighs⟩ := h.weighing
  have hread : Event.Genuine ⟨i, .getDocument key.space key.name, answer, snapshot⟩ :=
    h.genuine _ (mem_eventsOf.1 (hes ▸ List.mem_append_right _ (List.mem_cons_self ..))).1
  rw [← hread.document h.named]
  obtain ⟨hname, route, skip, weighed, hskip, hweigh, htreats⟩ := hweighs.treats hnodup ht
  refine ⟨hname, route, skip, weighed, hskip, hweigh, hes ▸ ?_⟩
  refine (htreats.prepend [_] fun e he => ?_).prepend lists fun e he => (hlists e he).not_writes _
  rw [List.mem_singleton.1 he]
  exact Bool.false_ne_true

/-- The first operation writes no documents. -/
theorem documentKey?_first
    (h : Joint rollout settings key change desired destinations c c' snapshot es ts hs) {e : Event}
    (he : e ∈ eventsOf 0 es) : e.request.documentKey? = none := by
  obtain ⟨lists, i, answer, rest, hes, hlists, hweighs⟩ := h.weighing
  rw [hes] at he
  rcases List.mem_append.1 he with he | he
  · exact (hlists e he).2
  rcases List.mem_cons.1 he with rfl | he
  · rfl
  · exact hweighs.documentKey? he

/-- Only the registry document is written. -/
theorem documentKey?
    (h : Joint rollout settings key change desired destinations c c' snapshot es ts hs) {e : Event}
    (he : e ∈ es) {k : DocumentKey} (hk : e.request.documentKey? = some k) : k = key := by
  rcases h.caller_cases he with hi | hi <;>
    replace he := mem_eventsOf.2 ⟨he, hi⟩
  · rw [h.documentKey?_first he] at hk
    cases hk
  · obtain ⟨lists, opening, rest, d, d', hes, hlists, hopen, hd, halters⟩ := h.altering
    rw [hes] at he
    rcases List.mem_append.1 he with he | he
    · rcases List.mem_append.1 he with he | he
      · rw [(hlists e he).2] at hk
        cases hk
      · exact hopen.documentKey? he hk
    · exact halters.documentKey? hd he hk

/-- Other documents stay as they are. -/
theorem documents
    (h : Joint rollout settings key change desired destinations c c' snapshot es ts hs)
    {k : DocumentKey} (hk : k ≠ key) : c'.documents.get? k = c.documents.get? k :=
  h.history.documents fun _ he hwrites => hk (h.documentKey? he (of_decide_eq_true hwrites))

/-- Only the routes of targets are written. -/
theorem routes (h : Joint rollout settings key change desired destinations c c' snapshot es ts hs)
    {e : Event} {k : RouteKey} (hk : e.writes k) :
    (e ∈ eventsOf 0 es → ∃ t ∈ ts, t.keyIn key.space = k) ∧
      (e ∈ eventsOf 1 es → ∃ t ∈ hs, t.keyIn key.space = k) := by
  refine ⟨fun he => ?_, fun he => ?_⟩
  · obtain ⟨lists, i, answer, rest, hes, hlists, hweighs⟩ := h.weighing
    rw [hes] at he
    rcases List.mem_append.1 he with he | he
    · exact absurd hk ((hlists e he).not_writes k)
    rcases List.mem_cons.1 he with rfl | he
    · cases hk
    · exact hweighs.writes he hk
  · obtain ⟨lists, opening, rest, d, d', hes, hlists, hopen, -, halters⟩ := h.altering
    rw [hes] at he
    rcases List.mem_append.1 he with he | he
    · rcases List.mem_append.1 he with he | he
      · exact absurd hk ((hlists e he).not_writes k)
      · exact absurd hk (hopen.not_writes he k)
    · exact halters.writes he hk

/-- Until the second operation writes a document, the one of the beginning is there. -/
theorem documents_before
    (h : Joint rollout settings key change desired destinations c c' snapshot es ts hs)
    {es₁ es₂ : List Event} {e : Event} (hsplit : es = es₁ ++ e :: es₂)
    (hes₁ : ∀ e' ∈ eventsOf 1 es₁, e'.request.documentKey? = none) :
    e.before.documents.get? key = c.documents.get? key := by
  have hhistory := h.history
  rw [hsplit] at hhistory
  refine hhistory.of_middle.1.documents fun e' he' hwrites => ?_
  have hnone : e'.request.documentKey? = none := by
    have hmem : e' ∈ es := hsplit ▸ List.mem_append_left _ he'
    rcases h.caller_cases hmem with hi | hi
    · exact h.documentKey?_first (mem_eventsOf.2 ⟨hmem, hi⟩)
    · exact hes₁ e' (mem_eventsOf.2 ⟨he', hi⟩)
  simp [Event.writesDocument, hnone] at hwrites

/-- The second operation starts from the document of the beginning. -/
theorem opened (h : Joint rollout settings key change desired destinations c c' snapshot es ts hs)
    {lists opening rest : List Event} {d : Document}
    (hes : eventsOf 1 es = lists ++ opening ++ rest) (hlists : ∀ e ∈ lists, e.Reads)
    (hopen : Opens key opening d) : d.withVersion none = c.document key ∧
      ∀ e ∈ lists ++ opening, ∀ stored, e.document? = some stored → stored = d := by
  refine ⟨?_, fun e he stored hstored => ?_⟩
  · cases hopen with
    | @read i _ before hd =>
      rw [List.append_assoc] at hes
      obtain ⟨es₁, es₂, hsplit, hown, -⟩ := eventsOf_split hes
      have hsame := h.documents_before hsplit fun e he => (hlists e (hown ▸ he)).2
      exact (Cluster.document_of_get? (hsame.symm.trans hd)).symm
    | @create i j e₁ v before before' hd =>
      have hes' : eventsOf 1 es = lists ++ [⟨i, .getDocument key.space key.name, .error e₁, before⟩]
          ++ ⟨j, .createDocument key.space key.name, .ok ((Cluster.created key).withVersion v),
            before'⟩ :: rest := by
        rw [hes, List.append_assoc, List.append_assoc]
        rfl
      obtain ⟨es₁, es₂, hsplit, hown, -⟩ := eventsOf_split hes'
      have hsame := h.documents_before hsplit fun e he => ?_
      · rw [Cluster.document, hsame.symm.trans hd]
        rfl
      · rw [hown] at he
        rcases List.mem_append.1 he with he | he
        · exact (hlists e he).2
        · rw [List.mem_singleton.1 he]
          rfl
  · rcases List.mem_append.1 he with he | he
    · rw [Event.document?_eq_none (hlists e he).2] at hstored
      cases hstored
    · exact hopen.eq_of_document? he hstored

/-- The second operation changes one target after the other, and the document with them. -/
theorem chain (h : Joint rollout settings key change desired destinations c c' snapshot es ts hs)
    (hnodup : (hs.map Target.identity).Nodup) :
    Chain rollout change (fun t _ route x => t.name ≠ "" ∧
      Treats (t.keyIn key.space) (eventsOf 1 es) route (x.map RouteChange.after)) (c.document key) hs
      (c'.document key) := by
  obtain ⟨lists, opening, rest, d, d', hes, hlists, hopen, hd, halters⟩ := h.altering
  obtain ⟨hfirst, hopened⟩ := h.opened hes hlists hopen
  have hlast : c'.document key = d'.withVersion none := by
    have hstart : (lastDocument (c.document key) (lists ++ opening)).withVersion none =
        d.withVersion none :=
      lastDocument_induction (R := fun d₀ => d₀.withVersion none = d.withVersion none)
        hfirst.symm fun e he stored hstored => by rw [hopened e he stored hstored]
    rw [h.history.document fun e he k hk => h.documentKey? he hk, ← lastDocument_eventsOf (i := 1)
      fun e he hi => ?_, hes, lastDocument_append, halters.lastDocument_eq hstart]
    have h0 := (h.caller_cases he).resolve_right hi
    exact Event.document?_eq_none (h.documentKey?_first (mem_eventsOf.2 ⟨he, h0⟩))
  rw [← hfirst, hlast]
  refine (halters.chain hnodup).imp fun t _ _ _ _ ⟨hname, htreats⟩ => ⟨hname, hes ▸ ?_⟩
  refine htreats.prepend _ fun e he => ?_
  rcases List.mem_append.1 he with he | he
  · exact (hlists e he).not_writes _
  · exact hopen.not_writes he _

/-- If the first operation is the first to write a route, the positions that it knows for the
target are those of the beginning. -/
theorem placedAs (h : Joint rollout settings key change desired destinations c c' snapshot es ts hs)
    {t : Target} {later : List Nat} (hwriters : writersOf (t.keyIn key.space) es = 0 :: later) :
    t.PlacedAs (c.document key) (snapshot.document key) := by
  obtain ⟨w, _, hfirst, hw, -⟩ := List.map_eq_cons_iff.1 hwriters
  obtain ⟨lists, i, answer, rest, hes, hlists, -⟩ := h.weighing
  obtain ⟨es₁, es₂, hsplit, hown, -⟩ := eventsOf_split hes
  have hunwritten : ∀ e ∈ es₁, ¬ e.writes (t.keyIn key.space) := by
    rw [hsplit, List.filter_append] at hfirst
    rcases List.append_eq_cons_iff.1 hfirst with ⟨hnone, -⟩ | ⟨others, hsome, -⟩
    · exact List.filter_eq_nil_iff.1 hnone
    · have hmem : w ∈ es₁.filter (Event.writes (t.keyIn key.space)) :=
        hsome ▸ List.mem_cons_self ..
      obtain ⟨hmem, hwrites⟩ := List.mem_filter.1 hmem
      exact absurd hwrites ((hlists w (hown ▸ mem_eventsOf.2 ⟨hmem, hw⟩)).not_writes _)
  have hhistory := h.history
  rw [hsplit] at hhistory
  have hsnapshot : snapshot.document key = _ := hhistory.of_middle.1.document fun e he k hk =>
    h.documentKey? (hsplit ▸ List.mem_append_left _ he) hk
  rw [hsnapshot]
  refine .trans ?_ (.of_unversioned rfl)
  refine lastDocument_induction (R := t.PlacedAs (c.document key)) (.of_unversioned rfl)
    fun e he stored hstored => ?_
  have hmem : e ∈ es := hsplit ▸ List.mem_append_left _ he
  rcases h.caller_cases hmem with hi | hi
  · rw [Event.document?_eq_none (h.documentKey?_first (mem_eventsOf.2 ⟨hmem, hi⟩))] at hstored
    cases hstored
  replace he := mem_eventsOf.2 ⟨he, hi⟩
  obtain ⟨lists', opening, rest', d, d', hes', hlists', hopen, hd, halters⟩ := h.altering
  obtain ⟨hstart, hopened⟩ := h.opened hes' hlists' hopen
  have hd : t.PlacedAs (c.document key) d := .of_unversioned hstart
  have hearly : e ∈ lists' ++ opening → t.PlacedAs (c.document key) stored := fun he =>
    hopened e he stored hstored ▸ hd
  rw [hsplit, eventsOf_append] at hes'
  rcases List.append_eq_append_iff.1 hes' with ⟨others, hopening, -⟩ | ⟨others, hwritten, hrest⟩
  · exact hearly (hopening ▸ List.mem_append_left _ he)
  · rw [hwritten] at he
    rcases List.mem_append.1 he with he | he
    · exact hearly he
    · refine hd.trans (halters.placedAs hrest (fun e he => hunwritten e ?_) he hstored)
      exact (mem_eventsOf.1 (hwritten ▸ List.mem_append_right _ he)).1

end Joint

end CanaryRouting
