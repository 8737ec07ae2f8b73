import CanaryRouting.Proofs.Shaping.InPlace
import CanaryRouting.Proofs.Shaping.Shares
import Mathlib.Data.List.Forall2

/-!
# The rule of a header route

A header route is requested by conditions on headers. Each of them asks for one predicate
(`HeaderCondition.Asks`), unless it is blank, and the first blank one is the error. The rule that is
then added is a copy of a template, the first rule that references both services (`IsTemplate`).
`AddedFor` goes through the fields of this copy: which it keeps, and which it has of its own. All
this is put together in `injected_exactly`.
-/

namespace CanaryRouting

/-! ### Predicates -/

/-- The text says nothing: it is missing or empty. -/
def Blank (text : Option String) : Prop := ∀ v, text = some v → v = ""

theorem nonEmpty_eq_some_iff {text : Option String} {v : String} :
    nonEmpty text = some v ↔ text = some v ∧ v ≠ "" := by
  simp [nonEmpty, Option.filter_eq_some_iff]

theorem nonEmpty_eq_none_iff {text : Option String} : nonEmpty text = none ↔ Blank text := by
  simp [nonEmpty, Option.filter_eq_none_iff, Blank]

namespace HeaderCondition

/-- The condition says nothing. -/
def IsBlank (c : HeaderCondition) : Prop :=
  Blank c.value.exact ∧ Blank c.value.start ∧ Blank c.value.regex

/-- The condition asks for the predicate. -/
inductive Asks (c : HeaderCondition) : HeaderPredicate → Prop where
  /-- For the exact text, if there is one. -/
  | exact {v : String} : c.value.exact = some v → v ≠ "" → Asks c ⟨c.header, some .exact, v⟩
  /-- Otherwise for the beginning, which is made a regular expression. -/
  | start {v : String} : Blank c.value.exact → c.value.start = some v → v ≠ "" →
    Asks c ⟨c.header, some .regularExpression, v ++ ".*"⟩
  /-- Otherwise for the regular expression. -/
  | regex {v : String} : Blank c.value.exact → Blank c.value.start → c.value.regex = some v →
    v ≠ "" → Asks c ⟨c.header, some .regularExpression, v⟩

theorem predicate?_eq_some_iff {c : HeaderCondition} {p : HeaderPredicate} :
    c.predicate? = some p ↔ c.Asks p := by
  unfold predicate?
  constructor
  · intro h
    split at h
    · next v hexact =>
      cases h
      obtain ⟨hv, hne⟩ := nonEmpty_eq_some_iff.1 hexact
      exact .exact hv hne
    · next v hexact hstart =>
      cases h
      obtain ⟨hv, hne⟩ := nonEmpty_eq_some_iff.1 hstart
      exact .start (nonEmpty_eq_none_iff.1 hexact) hv hne
    · next v hexact hstart hregex =>
      cases h
      obtain ⟨hv, hne⟩ := nonEmpty_eq_some_iff.1 hregex
      exact .regex (nonEmpty_eq_none_iff.1 hexact) (nonEmpty_eq_none_iff.1 hstart) hv hne
    · cases h
  · intro h
    cases h with
    | exact hv hne => simp [nonEmpty_eq_some_iff.2 ⟨hv, hne⟩]
    | start hexact hv hne =>
      simp [nonEmpty_eq_none_iff.2 hexact, nonEmpty_eq_some_iff.2 ⟨hv, hne⟩]
    | regex hexact hstart hv hne =>
      simp [nonEmpty_eq_none_iff.2 hexact, nonEmpty_eq_none_iff.2 hstart,
        nonEmpty_eq_some_iff.2 ⟨hv, hne⟩]

theorem predicate?_eq_none_iff {c : HeaderCondition} : c.predicate? = none ↔ c.IsBlank := by
  unfold predicate? IsBlank
  rw [← nonEmpty_eq_none_iff, ← nonEmpty_eq_none_iff, ← nonEmpty_eq_none_iff]
  split <;> simp_all

end HeaderCondition

/-- The predicates are those that the conditions ask for, one for each. -/
theorem headerPredicates_eq_ok_iff {requested : List HeaderCondition}
    {headers : List HeaderPredicate} :
    headerPredicates requested = .ok headers ↔
      List.Forall₂ HeaderCondition.Asks requested headers := by
  induction requested generalizing headers with
  | nil => simp [headerPredicates, eq_comm]
  | cons c cs ih =>
    rw [headerPredicates, List.forall₂_cons_left_iff]
    simp only [← HeaderCondition.predicate?_eq_some_iff, ← ih]
    cases c.predicate? with
    | none => simp
    | some p => cases headerPredicates cs <;> simp [Except.map, eq_comm]

/-- There is an error if a condition says nothing, and it names the header of the first one. -/
theorem headerPredicates_eq_error_iff {requested : List HeaderCondition} {e : RoutingError} :
    headerPredicates requested = .error e ↔
      ∃ front c back, requested = front ++ c :: back ∧ (∀ c' ∈ front, ¬ c'.IsBlank) ∧ c.IsBlank ∧
        e = .invalidHeaderMatch c.header := by
  simp only [← HeaderCondition.predicate?_eq_none_iff]
  induction requested with
  | nil => simp [headerPredicates]
  | cons c cs ih =>
    rw [headerPredicates]
    cases hc : c.predicate? with
    | none =>
      constructor
      · intro h
        cases h
        exact ⟨[], c, cs, rfl, by simp, hc, rfl⟩
      · rintro ⟨front, c', back, hsplit, hfront, hblank, rfl⟩
        cases front with
        | nil =>
          obtain ⟨rfl, rfl⟩ := List.cons.inj hsplit
          rfl
        | cons x front =>
          obtain ⟨rfl, rfl⟩ := List.cons.inj hsplit
          exact absurd hc (hfront c List.mem_cons_self)
    | some p =>
      have herror : (headerPredicates cs).map (p :: ·) = .error e ↔
          headerPredicates cs = .error e := by
        cases headerPredicates cs <;> simp [Except.map]
      rw [herror, ih]
      constructor
      · rintro ⟨front, c', back, rfl, hfront, hblank, he⟩
        exact ⟨c :: front, c', back, rfl, by simpa [hc] using hfront, hblank, he⟩
      · rintro ⟨front, c', back, hsplit, hfront, hblank, he⟩
        cases front with
        | nil =>
          obtain ⟨rfl, rfl⟩ := List.cons.inj hsplit
          rw [hc] at hblank
          cases hblank
        | cons x front =>
          obtain ⟨rfl, rfl⟩ := List.cons.inj hsplit
          exact ⟨front, c', back, rfl, fun y hy => hfront y (List.mem_cons_of_mem _ hy), hblank, he⟩

/-- The conditions have predicates just if each of them says something. -/
theorem headerPredicates_isOk_iff {requested : List HeaderCondition} :
    (∃ headers, headerPredicates requested = .ok headers) ↔ ∀ c ∈ requested, ¬ c.IsBlank := by
  constructor
  · rintro ⟨headers, hok⟩ c hc hblank
    have hasks := headerPredicates_eq_ok_iff.1 hok
    obtain ⟨i, hi, rfl⟩ := List.getElem_of_mem hc
    have hp := hasks.get hi (hasks.length_eq ▸ hi)
    rw [← HeaderCondition.predicate?_eq_some_iff, List.get_eq_getElem,
      HeaderCondition.predicate?_eq_none_iff.2 hblank] at hp
    cases hp
  · intro h
    cases hresult : headerPredicates requested with
    | ok headers => exact ⟨headers, rfl⟩
    | error e =>
      obtain ⟨front, c, back, rfl, -, hblank, -⟩ := headerPredicates_eq_error_iff.1 hresult
      exact absurd hblank (h c (by simp))

/-! ### The template -/

/-- The rule to copy and its position: the first rule that references both services. -/
structure IsTemplate (canary stable : String) (rules : List Rule) (base : Nat) (template : Rule) :
    Prop where
  /-- It stands there. -/
  get : rules[base]? = some template
  /-- It references both services. -/
  references : template.references canary ∧ template.references stable
  /-- No such rule comes before it. -/
  first : ∀ i < base, ∀ r, rules[i]? = some r → ¬ (r.references canary ∧ r.references stable)

/-- The reference is the first one to the service. -/
def IsFirstRef (service : String) (refs : List BackendRef) (b : BackendRef) : Prop :=
  ∃ front back, refs = front ++ b :: back ∧ b.name = service ∧ ∀ b' ∈ front, b'.name ≠ service

/-- The rule is the one that a header route adds: a copy of the template for the headers and the
canary alone. -/
structure AddedFor (canary : String) (headers : List HeaderPredicate) (template rule : Rule) :
    Prop where
  /-- It has no name. -/
  name : rule.name = none
  /-- It does the same to requests. -/
  filters : rule.filters = template.filters
  /-- It has the same time limits. -/
  timeouts : rule.timeouts = template.timeouts
  /-- For each condition of the template it has one with the headers, and the same besides. -/
  conditions : ∀ cs, template.conditions = some cs → cs ≠ [] → ∃ cs', rule.conditions = some cs' ∧
    List.Forall₂ (fun c c' => c'.others = c.others ∧ c'.headers = some headers) cs cs'
  /-- If there are none, it has one with the headers and nothing else. -/
  headersOnly : template.conditions.getD [] = [] → rule.conditions = some [⟨some headers, []⟩]
  /-- Its only reference is the template's first one to the canary, as to a plain service, and
  without a weight. -/
  backend : ∃ b, IsFirstRef canary template.refs b ∧ rule.backendRefs = some [{ b with
    weight := none, group := some "", kind := some "Service", filters := none }]

section

variable {kind : RouteKind} {rules : List Rule} {canary stable : String} {base : Nat}
  {template : Rule}

theorem isTemplate_iff :
    (rules.findIdx? fun r => r.references canary && r.references stable) = some base ↔
      ∃ template, IsTemplate canary stable rules base template := by
  rw [findIdx?_eq_some_iff_getElem?]
  simp only [Bool.and_eq_true]
  constructor
  · rintro ⟨⟨template, hget, hboth⟩, hfirst⟩
    exact ⟨template, hget, hboth, hfirst⟩
  · rintro ⟨template, h⟩
    exact ⟨⟨template, h.get, h.references⟩, h.first⟩

theorem find?_eq_some_iff_isFirstRef {service : String} {refs : List BackendRef} {b : BackendRef} :
    (refs.find? fun b => b.name = service) = some b ↔ IsFirstRef service refs b := by
  rw [List.find?_eq_some_iff_append, IsFirstRef]
  simp only [decide_eq_true_iff, Bool.not_eq_true', decide_eq_false_iff_not]
  constructor
  · rintro ⟨hname, front, back, hrefs, hfront⟩
    exact ⟨front, back, hrefs, hname, hfront⟩
  · rintro ⟨front, back, hrefs, hname, hfront⟩
    exact ⟨hname, front, back, hrefs, hfront⟩

theorem addedFor_forHeaders {backend : BackendRef} (hbackend : IsFirstRef canary template.refs backend)
    (headers : List HeaderPredicate) :
    AddedFor canary headers template (template.forHeaders headers backend) := by
  constructor
  case name => rfl
  case filters => rfl
  case timeouts => rfl
  case conditions =>
    intro cs hcs hne
    obtain ⟨c, cs, rfl⟩ := List.exists_cons_of_ne_nil hne
    refine ⟨_, rfl, ?_⟩
    rw [hcs, replaceHeaders, List.forall₂_map_right_iff, List.forall₂_same]
    · exact fun _ _ => ⟨rfl, rfl⟩
    · simp
  case headersOnly =>
    intro hnone
    cases h : template.conditions with
    | none => simp [Rule.forHeaders, replaceHeaders, h]
    | some cs =>
      obtain rfl : cs = [] := by simpa [h] using hnone
      simp [Rule.forHeaders, replaceHeaders, h]
  case backend => exact ⟨backend, hbackend, rfl⟩

/-- A template has a first reference to the canary, so the rule can be made. -/
theorem IsTemplate.injectHeaderRule_eq (h : IsTemplate canary stable rules base template)
    (kind : RouteKind) (headers : List HeaderPredicate) :
    ∃ rule, AddedFor canary headers template rule ∧
      injectHeaderRule kind rules canary stable headers = .ok (rules ++ [rule], rules.length) := by
  obtain ⟨backend, hbackend⟩ : ∃ backend, (template.refs.find? fun b => b.name = canary) =
      some backend := by
    rw [← Option.isSome_iff_exists, List.find?_isSome]
    simpa [Rule.references] using h.references.1
  refine ⟨_, addedFor_forHeaders (find?_eq_some_iff_isFirstRef.1 hbackend) headers, ?_⟩
  have hfind : findRuleWithServices kind rules canary stable = .ok base := by
    rw [findRuleWithServices, isTemplate_iff.2 ⟨template, h⟩]
  have hget : rules.getD base {} = template := by
    rw [List.getD_eq_getElem?_getD, h.get, Option.getD_some]
  simp only [injectHeaderRule, hfind, bind, Except.bind, hget, hbackend]
  rfl

/-- Without a template no rule is added. -/
theorem injectHeaderRule_of_not_references
    (h : ∀ r ∈ rules, ¬ (r.references canary ∧ r.references stable)) (kind : RouteKind)
    (headers : List HeaderPredicate) :
    injectHeaderRule kind rules canary stable headers = .error (.ruleNotFound kind canary stable) := by
  have hnone : (rules.findIdx? fun r => r.references canary && r.references stable) = none := by
    simpa [List.findIdx?_eq_none_iff] using h
  simp only [injectHeaderRule, findRuleWithServices, hnone]
  rfl

/-- A rule that references both services makes for a template. -/
theorem exists_isTemplate {r : Rule} (hr : r ∈ rules)
    (hboth : r.references canary ∧ r.references stable) :
    ∃ base template, IsTemplate canary stable rules base template := by
  have hsome : (rules.findIdx? fun r => r.references canary && r.references stable).isSome := by
    rw [List.findIdx?_isSome, List.any_eq_true]
    exact ⟨r, hr, by simpa using hboth⟩
  obtain ⟨base, hbase⟩ := Option.isSome_iff_exists.1 hsome
  exact ⟨base, isTemplate_iff.1 hbase⟩

end

/-- The conditions on headers are made predicates one by one, unless one of them says nothing, which
is the error then. A rule for the predicates can be added if some rule references both services, and
is the copy described above, behind the other rules. Otherwise the rules stay as they were. -/
theorem injected_exactly (kind : RouteKind) (rules : List Rule) (canary stable : String)
    (requested : List HeaderCondition) :
    ((∃ headers, headerPredicates requested = .ok headers) ↔ ∀ c ∈ requested, ¬ c.IsBlank) ∧
    (∀ e, headerPredicates requested = .error e ↔
      ∃ front c back, requested = front ++ c :: back ∧ (∀ c' ∈ front, ¬ c'.IsBlank) ∧ c.IsBlank ∧
        e = .invalidHeaderMatch c.header) ∧
    (∀ headers, headerPredicates requested = .ok headers ↔
      List.Forall₂ HeaderCondition.Asks requested headers) ∧
    ∀ headers,
      ((∃ rules' i, injectHeaderRule kind rules canary stable headers = .ok (rules', i)) ↔
        ∃ r ∈ rules, r.references canary ∧ r.references stable) ∧
      (injectInPlace kind canary stable headers).carryOut rules =
        (match injectHeaderRule kind rules canary stable headers with
        | .ok (rules', i) => (.ok i, rules')
        | .error e => (.error e, rules)) ∧
      ∀ rules' i, injectHeaderRule kind rules canary stable headers = .ok (rules', i) →
        i = rules.length ∧ ∃ base template rule, IsTemplate canary stable rules base template ∧
          AddedFor canary headers template rule ∧ rules' = rules ++ [rule] := by
  refine ⟨headerPredicates_isOk_iff, fun e => headerPredicates_eq_error_iff,
    fun headers => headerPredicates_eq_ok_iff, fun headers => ⟨?_, ?_, ?_⟩⟩
  · constructor
    · rintro ⟨rules', i, h⟩
      by_contra hnone
      rw [injectHeaderRule_of_not_references (by simpa using hnone)] at h
      cases h
    · rintro ⟨r, hr, hboth⟩
      obtain ⟨base, template, htemplate⟩ := exists_isTemplate hr hboth
      obtain ⟨rule, -, h⟩ := htemplate.injectHeaderRule_eq kind headers
      exact ⟨_, _, h⟩
  · rw [realizes_injectInPlace kind canary stable headers rules]
    cases h : injectHeaderRule kind rules canary stable headers with
    | ok s => simp [h, Except.map]
    | error e => simp [h, Except.map]
  · intro rules' i h
    by_cases hboth : ∃ r ∈ rules, r.references canary ∧ r.references stable
    · obtain ⟨r, hr, hboth⟩ := hboth
      obtain ⟨base, template, htemplate⟩ := exists_isTemplate hr hboth
      obtain ⟨rule, hrule, hadded⟩ := htemplate.injectHeaderRule_eq kind headers
      rw [hadded] at h
      cases h
      exact ⟨rfl, base, template, rule, htemplate, hrule, rfl⟩
    · rw [injectHeaderRule_of_not_references (by simpa using hboth)] at h
      cases h

/-- Rules of which the second is the template: it has a name, and two conditions one of which is on a
header already. -/
def splitRules : List Rule :=
  [{ backendRefs := some [{ name := "canary" }] },
   { name := some "split"
     conditions := some [⟨some [⟨"x-user", some .exact, "me"⟩], [("method", .string "GET")]⟩,
       ⟨none, [("path", .object [("value", .string "/shop")])]⟩]
     filters := some [.string "mirror"]
     backendRefs := some [{ name := "stable", weight := some 60 },
       { name := "canary", weight := some 40, port := some 80, filters := some [] },
       { name := "canary", port := some 81 }] }]

/-- An exact text that goes before a regular expression, and a beginning behind an empty text. -/
def splitConditions : List HeaderCondition :=
  [⟨"x-team", { exact := some "blue", regex := some "b.*" }⟩,
   ⟨"x-build", { exact := some "", start := some "rc-" }⟩]

theorem injected_exactly_split :
    ∃ headers rules' i, headerPredicates splitConditions = .ok headers ∧
      injectHeaderRule .http splitRules "canary" "stable" headers = .ok (rules', i) ∧
      List.Forall₂ HeaderCondition.Asks splitConditions headers ∧ i = splitRules.length ∧
      ∃ base template rule, IsTemplate "canary" "stable" splitRules base template ∧
        AddedFor "canary" headers template rule ∧ rules' = splitRules ++ [rule] := by
  obtain ⟨-, -, hpredicates, hinjected⟩ :=
    injected_exactly .http splitRules "canary" "stable" splitConditions
  obtain ⟨-, -, hadded⟩ := hinjected [⟨"x-team", some .exact, "blue"⟩,
    ⟨"x-build", some .regularExpression, "rc-" ++ ".*"⟩]
  exact ⟨_, _, _, rfl, rfl, (hpredicates _).1 rfl, hadded _ _ rfl⟩

/-- The rule that is added to them. -/
example (headers : List HeaderPredicate) :
    injectHeaderRule .grpc splitRules "canary" "stable" headers = .ok (splitRules ++ [
      { conditions := some [⟨some headers, [("method", .string "GET")]⟩,
          ⟨some headers, [("path", .object [("value", .string "/shop")])]⟩]
        filters := some [.string "mirror"]
        backendRefs := some [
          { name := "canary", port := some 80, group := some "", kind := some "Service" }] }], 2) := by
  rfl

end CanaryRouting
