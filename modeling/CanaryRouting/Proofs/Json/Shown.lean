import CanaryRouting.Data.Except
import CanaryRouting.Json.Decoder
import CanaryRouting.Proofs.Json.Lexing

/-!
# What a printed value shows

`Shows x w` says that the text of `x` is read as `w`, whatever follows it. Whole numbers show what
their digits stand for (`Shows.ofInt`), and an object shows its members in order
(`Shows.object`), so that what is printed and then read from the start is what was shown
(`Shows.ofText`).

Of maps, decoding what an object shows builds the map of its members anew
(`keyedMembers_eq_ok`), which is the map that was printed (`KeyMap.ofList_entries`).
-/

namespace CanaryRouting.Json

/-- The text of the value is cut into tokens that are read as `w`. -/
def Shows (x : Json) (w : Wire) : Prop :=
  ∃ ts : List Token,
    (∀ rest, EndsNumeral rest → lex (x.chars ++ rest) = ts ++ lex rest) ∧
    (∀ steps rest, ts.length ≤ steps → 0 < steps → Wire.readValue steps (ts ++ rest) = (w, rest))

theorem endsNumeral_comma (rest : List Char) : EndsNumeral (',' :: rest) := by
  rintro c ⟨⟩
  decide

theorem endsNumeral_brace (rest : List Char) : EndsNumeral ('\x7d' :: rest) := by
  rintro c ⟨⟩
  decide

/-- A whole number shows what its digits stand for. -/
theorem Shows.ofInt (n : Nat) : Shows (.ofInt n) (.number (natural n)) := by
  refine ⟨[.number (natural n)], fun rest h => ?_, fun steps rest _ hpos => ?_⟩
  · have hchars : (Json.ofInt n).chars = Nat.toDigits 10 n := by
      simp only [Json.ofInt, chars, Number.chars, intChars]
      rw [if_neg (by omega), Int.natAbs_natCast]
    rw [hchars, lex_digits n h]
    rfl
  · obtain ⟨s, rfl⟩ := Nat.exists_eq_succ_of_ne_zero (Nat.pos_iff_ne_zero.1 hpos)
    rfl

variable {α : Type} {f : α → Json} {w : α → Wire} {es : List (String × α)}

/-- The members of an object, if there are any, show themselves in order. -/
theorem shows_members (h : ∀ e ∈ es, Shows (f e.2) (w e.2)) (hne : es ≠ []) :
    ∃ k ts,
      (∀ rest, lex (membersChars (es.map fun e => (e.1, f e.2)) ++ rest) =
        .string (some k) :: ts ++ lex rest) ∧
      ∀ steps rest, ts.length < steps →
        Wire.readMembers steps (.string (some k) :: ts ++ rest) =
          (es.map fun e => (some e.1, w e.2), rest) := by
  induction es with
  | nil => exact absurd rfl hne
  | cons e es ih =>
    obtain ⟨k, x⟩ := e
    obtain ⟨ts, hlex, hread⟩ := h (k, x) (by simp)
    cases es with
    | nil =>
      refine ⟨k, .colon :: (ts ++ [.closeBrace]), fun rest => ?_, fun steps rest hlen => ?_⟩
      · simp only [List.map_cons, List.map_nil, membersChars, List.append_assoc, List.cons_append]
        rw [lex_quote, lex_mark rfl rfl, hlex _ (endsNumeral_brace _), List.nil_append,
          lex_mark rfl rfl]
        simp
      · simp only [List.length_cons, List.length_append] at hlen
        obtain ⟨s, rfl⟩ := Nat.exists_eq_succ_of_ne_zero (n := steps) (by omega)
        simp only [List.cons_append, List.append_assoc, List.nil_append, Wire.readMembers]
        rw [hread s _ (by omega) (by omega)]
        rfl
    | cons e' es' =>
      obtain ⟨k', ts', hlex', hread'⟩ := ih (fun e he => h e (by simp [he])) (by simp)
      refine ⟨k, .colon :: (ts ++ .comma :: .string (some k') :: ts'), fun rest => ?_,
        fun steps rest hlen => ?_⟩
      · rw [List.map_cons] at hlex'
        simp only [List.map_cons, membersChars, List.append_assoc, List.cons_append]
        rw [lex_quote, lex_mark rfl rfl, hlex _ (endsNumeral_comma _), lex_mark rfl rfl, hlex']
        simp
      · simp only [List.length_cons, List.length_append] at hlen
        obtain ⟨s, rfl⟩ := Nat.exists_eq_succ_of_ne_zero (n := steps) (by omega)
        simp only [List.cons_append, List.append_assoc, Wire.readMembers]
        rw [hread s _ (by omega) (by omega)]
        simp only
        rw [← List.cons_append, hread' s rest (by omega)]
        rfl

/-- An object shows its members in order. -/
theorem Shows.object (h : ∀ e ∈ es, Shows (f e.2) (w e.2)) :
    Shows (.object (es.map fun e => (e.1, f e.2)))
      (.object (es.map fun e => (some e.1, w e.2))) := by
  by_cases hne : es = []
  · subst hne
    refine ⟨[.openBrace, .closeBrace], fun rest _ => ?_, fun steps rest _ hpos => ?_⟩
    · simp only [List.map_nil, chars, membersChars, List.cons_append, List.nil_append]
      rw [lex_mark rfl rfl, lex_mark rfl rfl]
    · obtain ⟨s, rfl⟩ := Nat.exists_eq_succ_of_ne_zero (Nat.pos_iff_ne_zero.1 hpos)
      rfl
  · obtain ⟨k, ts, hlex, hread⟩ := shows_members h hne
    refine ⟨.openBrace :: .string (some k) :: ts, fun rest _ => ?_, fun steps rest hlen _ => ?_⟩
    · simp only [chars, List.cons_append]
      rw [lex_mark rfl rfl, hlex]
      simp
    · simp only [List.length_cons] at hlen
      obtain ⟨s, rfl⟩ := Nat.exists_eq_succ_of_ne_zero (n := steps) (by omega)
      simp only [List.cons_append, Wire.readValue]
      rw [← List.cons_append, hread s rest (by omega)]

/-- Reading a printed value from the start gives what it shows. -/
theorem Shows.ofText {x : Json} {w : Wire} (h : Shows x w) :
    Wire.ofText x.compress = (w.limitDepth Wire.maxDepth, []) := by
  obtain ⟨ts, hlex, hread⟩ := h
  have htokens : lex x.chars = ts := by
    have := hlex [] endsNumeral_nil
    simpa [lex] using this
  have hvalue := hread (2 * ts.length + 2) [] (by omega) (by omega)
  rw [List.append_nil] at hvalue
  simp only [Wire.ofText, compress, String.toList_ofList, htokens, hvalue]

end CanaryRouting.Json

namespace CanaryRouting

/-! ### Maps -/

namespace KeyMap

variable {κ : Type} {α : Type} [KeyOrder κ]

theorem get?_foldl_insert {es : List (κ × α)} (h : es.Pairwise (fun a b => a.1 < b.1))
    (m : KeyMap κ α) (k : κ) :
    (es.foldl (fun m e => m.insert e.1 e.2) m).get? k = (lookupIn k es).or (m.get? k) := by
  induction es generalizing m with
  | nil => rfl
  | cons e es ih =>
    rw [List.pairwise_cons] at h
    rw [List.foldl_cons, ih h.2, get?_insert, lookupIn]
    split
    · next hk =>
      have hnone : lookupIn k es = none :=
        lookupIn_eq_none fun d hd => hk ▸ (KeyOrder.ne_of_lt (h.1 d hd)).symm
      simp [hnone]
    · rfl

/-- A map is the map of its entries. -/
theorem ofList_entries (m : KeyMap κ α) : ofList m.entries = m := by
  ext k : 1
  rw [ofList, get?_foldl_insert m.ordered, get?_empty, Option.or_none]
  rfl

end KeyMap

namespace Decoder

variable {α : Type} {d : Decoder α} {w : α → Wire}

/-- Decoding the members of an object succeeds if that of every value does. -/
theorem keyedMembers_eq_ok {es : List (String × α)} (m : KeyMap String α)
    (h : ∀ e ∈ es, d (w e.2) = .ok e.2) :
    keyedMembers d m (es.map fun e => (some e.1, w e.2)) =
      .ok (es.foldl (fun m e => m.insert e.1 e.2) m) := by
  induction es generalizing m with
  | nil => rfl
  | cons e es ih =>
    rw [List.map_cons, keyedMembers, h e (by simp), Except.bind, ih _ fun e he => h e (by simp [he])]
    rfl

/-- If values are decoded as what they show or not at all, so are maps. -/
theorem eq_of_keyedMembers_eq_ok {es : List (String × α)} {m m' : KeyMap String α}
    (h : ∀ e ∈ es, ∀ y, d (w e.2) = .ok y → y = e.2)
    (hok : keyedMembers d m (es.map fun e => (some e.1, w e.2)) = .ok m') :
    m' = es.foldl (fun m e => m.insert e.1 e.2) m := by
  induction es generalizing m with
  | nil => cases hok; rfl
  | cons e es ih =>
    rw [List.map_cons, keyedMembers] at hok
    obtain ⟨y, hd, hrest⟩ := Except.bind_eq_ok.1 hok
    rw [h e (by simp) y hd] at hrest
    exact ih (fun e he => h e (by simp [he])) hrest

/-- What every value that is read satisfies, every value of a map that is read satisfies. -/
theorem of_keyedMembers {p : α → Prop} (h : ∀ w x, d w = .ok x → p x)
    {ms : List (Option String × Wire)} {m m' : KeyMap String α} (hm : ∀ e ∈ m.entries, p e.2)
    (hok : keyedMembers d m ms = .ok m') : ∀ e ∈ m'.entries, p e.2 := by
  induction ms generalizing m with
  | nil => cases hok; exact hm
  | cons member ms ih =>
    obtain ⟨_ | key, w⟩ := member
    · cases hok
    · rw [keyedMembers] at hok
      obtain ⟨x, hd, hrest⟩ := Except.bind_eq_ok.1 hok
      refine ih (fun e he => ?_) hrest
      rcases KeyMap.mem_insertIn he with rfl | he
      · exact h w x hd
      · exact hm e he

theorem of_keyed {p : α → Prop} (h : ∀ w x, d w = .ok x → p x) {w : Wire}
    {m : KeyMap String α} (hok : keyed d w = .ok m) : ∀ e ∈ m.entries, p e.2 := by
  unfold keyed at hok
  split at hok
  · exact of_keyedMembers h (List.forall_mem_nil _) hok
  · cases hok

/-- What is read from a text is what the text shows. -/
theorem of_ofText {s : String} {x : α} (h : d.ofText s = .ok x) : ∃ w, d w = .ok x := by
  unfold ofText at h
  split at h
  · next w _ => exact ⟨w, h⟩
  · next w _ _ _ =>
    cases hd : d w <;> rw [hd] at h <;> cases h

end Decoder

end CanaryRouting
