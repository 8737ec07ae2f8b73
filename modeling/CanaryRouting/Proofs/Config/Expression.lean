import CanaryRouting.Cluster.Query
import CanaryRouting.Config.Selector
import CanaryRouting.Proofs.Json.Shown
import Mathlib.Data.List.TakeWhile

/-!
# What the text of a selector tells

Keys and values of labels are made of letters, digits and a few marks, none of which has a meaning
of its own in the text of a selector (`LabelSelector.isPlain`). So the server cuts the text into
the terms it was put together from (`pieces_expression`): a comma between values stands inside
parentheses. A term with `=` is about a label value, and any other shows its requirement
(`Requirement.ofPiece_term`), so that the selector can be read off its text
(`LabelSelector.ofExpression_expression`). Two selectors have the same text exactly if they differ
in nothing but that one lacks a list or map that is empty in the other
(`LabelSelector.expression_eq_iff`).
-/

namespace CanaryRouting

/-! ### Cutting a text -/

namespace Query

/-- A text that begins this deep in parentheses is not cut, and ends that deep. -/
inductive Uncut : Int → List Char → Int → Prop where
  /-- Nothing is not cut. -/
  | nil {depth : Int} : Uncut depth [] depth
  /-- A comma does not cut inside of parentheses. -/
  | cons {depth final : Int} {c : Char} {cs : List Char} :
    ¬ (c = ',' ∧ depth = 0) → Uncut (depth + nesting c) cs final → Uncut depth (c :: cs) final

namespace Uncut

variable {depth middle final : Int} {cs cs' : List Char}

theorem append (h : Uncut depth cs middle) (h' : Uncut middle cs' final) :
    Uncut depth (cs ++ cs') final := by
  induction h with
  | nil => exact h'
  | cons hc _ ih => exact .cons hc (ih h')

/-- Characters that are neither parentheses nor, outside of them, commas do not cut. -/
theorem of_forall (h : ∀ c ∈ cs, nesting c = 0 ∧ (c = ',' → depth ≠ 0)) :
    Uncut depth cs depth := by
  induction cs with
  | nil => exact .nil
  | cons c cs ih =>
    obtain ⟨hnesting, hcomma⟩ := h c (List.mem_cons_self ..)
    refine .cons (fun e => hcomma e.1 e.2) ?_
    rw [hnesting, Int.add_zero]
    exact ih fun c hc => h c (List.mem_cons_of_mem _ hc)

/-- A text that is not cut is the first piece, up to the comma behind it. -/
theorem pieces_append (h : Uncut depth cs final) (hfinal : final = 0) (rest : List Char) :
    pieces depth (cs ++ ',' :: rest) = cs :: pieces 0 rest := by
  induction h with
  | nil =>
    subst hfinal
    rw [List.nil_append, pieces, if_pos ⟨rfl, rfl⟩]
  | cons hc _ ih => rw [List.cons_append, pieces, if_neg hc, ih hfinal]

/-- A text that is not cut is one piece. -/
theorem pieces_eq (h : Uncut depth cs final) (hne : cs ≠ []) : pieces depth cs = [cs] := by
  induction h with
  | nil => exact absurd rfl hne
  | @cons depth final c cs hc _ ih =>
    rw [pieces, if_neg hc]
    by_cases hcs : cs = []
    · rw [hcs, pieces]
    · rw [ih hcs]

end Uncut

/-- Texts that are not cut are the pieces of what is put together from them. -/
theorem pieces_intercalate {terms : List (List Char)} (h : ∀ t ∈ terms, Uncut 0 t 0 ∧ t ≠ []) :
    pieces 0 ([','].intercalate terms) = terms := by
  induction terms with
  | nil => rfl
  | cons t ts ih =>
    obtain ⟨huncut, hne⟩ := h t (List.mem_cons_self ..)
    cases ts with
    | nil => rw [List.intercalate_singleton, huncut.pieces_eq hne]
    | cons t' ts =>
      rw [List.intercalate_cons_cons, List.append_assoc, List.singleton_append,
        huncut.pieces_append rfl, ih fun t ht => h t (List.mem_cons_of_mem _ ht)]

end Query

/-! ### Plain texts -/

namespace LabelSelector

/-- A character without a meaning of its own in the text of a selector. -/
def isPlain (c : Char) : Bool := c ∉ [',', '=', ' ', '(', ')', '!']

/-- The letters, digits and marks that keys and values of labels are made of are plain, and so is
whatever lies beyond ASCII. -/
theorem isPlain_of_label {c : Char}
    (h : c.isAlphanum ∨ c ∈ ['.', '_', '-', '/'] ∨ 128 ≤ c.toNat) : isPlain c := by
  simp only [isPlain, decide_eq_true_eq, List.mem_cons, List.not_mem_nil, or_false] at h ⊢
  rintro (rfl | rfl | rfl | rfl | rfl | rfl) <;> revert h <;> decide

/-- A text of plain characters. -/
def IsPlainText (s : String) : Prop := ∀ c ∈ s.toList, isPlain c

instance (s : String) : Decidable (IsPlainText s) :=
  List.decidableBAll _ s.toList

end LabelSelector

/-- A requirement as it may be asked for: on a key of plain characters, either that the value is or
is not one of some texts of plain characters, or that the label is there or not. -/
structure Requirement.IsPlain (r : Requirement) : Prop where
  /-- There is a key. -/
  key_ne : r.key ≠ ""
  /-- It is plain. -/
  key : LabelSelector.IsPlainText r.key
  /-- The values are plain. -/
  values : ∀ v ∈ r.values.getD [], LabelSelector.IsPlainText v
  /-- There are values exactly where the operator compares with them. -/
  operator : (r.operator = "In" ∨ r.operator = "NotIn") ∧ r.values.getD [] ≠ [] ∨
    (r.operator = "Exists" ∨ r.operator = "DoesNotExist") ∧ r.values.getD [] = []

/-- A selector whose keys and values are plain and whose operators are used as they may be. -/
structure LabelSelector.IsPlain (s : LabelSelector) : Prop where
  /-- The labels and their values are plain. -/
  labels : ∀ e ∈ (s.matchLabels.getD KeyMap.empty).entries,
    e.1 ≠ "" ∧ IsPlainText e.1 ∧ IsPlainText e.2
  /-- The requirements are plain. -/
  requirements : ∀ r ∈ s.matchExpressions.getD [], r.IsPlain

/-- The requirement with an empty list for one that is absent. -/
def Requirement.filled (r : Requirement) : Requirement :=
  { r with values := some (r.values.getD []) }

/-- The selector with empty lists and an empty map for those that are absent. -/
def LabelSelector.filled (s : LabelSelector) : LabelSelector where
  matchLabels := some (s.matchLabels.getD KeyMap.empty)
  matchExpressions := some ((s.matchExpressions.getD []).map Requirement.filled)

/-! ### Reading a term -/

/-- The label value that a piece with `=` shows. -/
def LabelSelector.labelOfPiece (piece : List Char) : String × String :=
  (String.ofList (piece.takeWhile (· ≠ '=')), String.ofList ((piece.dropWhile (· ≠ '=')).drop 1))

/-- The requirement that any other piece shows. Behind a blank stand an operator and values in
parentheses. -/
def Requirement.ofPiece (piece : List Char) : Requirement :=
  match piece.dropWhile (· ≠ ' ') with
  | _ :: rest =>
    { key := String.ofList (piece.takeWhile (· ≠ ' '))
      operator := if rest.takeWhile (· ≠ ' ') = ['i', 'n'] then "In" else "NotIn"
      values :=
        some (((((rest.dropWhile (· ≠ ' ')).drop 2).dropLast).splitOn ',').map String.ofList) }
  | [] =>
    match piece with
    | '!' :: key => ⟨String.ofList key, "DoesNotExist", some []⟩
    | key => ⟨String.ofList key, "Exists", some []⟩

/-- The selector that a text shows. -/
def LabelSelector.ofExpression (text : String) : LabelSelector :=
  let pieces := Query.pieces 0 text.toList
  { matchLabels := some (KeyMap.ofList ((pieces.filter (·.contains '=')).map labelOfPiece))
    matchExpressions := some ((pieces.filter (!·.contains '=')).map Requirement.ofPiece) }

namespace LabelSelector

theorem isPlain_iff {c : Char} :
    isPlain c ↔ c ≠ ',' ∧ c ≠ '=' ∧ c ≠ ' ' ∧ c ≠ '(' ∧ c ≠ ')' ∧ c ≠ '!' := by
  simp [isPlain]

/-- A plain text does not cut, however deep it stands. -/
theorem uncut_of_isPlain {cs : List Char} (h : ∀ c ∈ cs, isPlain c) (depth : Int) :
    Query.Uncut depth cs depth :=
  .of_forall fun c hc => by
    obtain ⟨hcomma, -, -, hopen, hclose, -⟩ := isPlain_iff.1 (h c hc)
    exact ⟨by simp [Query.nesting, hopen, hclose], fun e => absurd e hcomma⟩

theorem IsPlainText.notMem {t : String} (h : IsPlainText t) {mark : Char}
    (hmark : isPlain mark = false) : mark ∉ t.toList := fun hmem => by
  rw [h mark hmem] at hmark
  cases hmark

end LabelSelector

/-! ### Terms -/

section Marks

variable {mark : Char} {cs : List Char}

theorem takeWhile_append_mark (h : mark ∉ cs) (rest : List Char) :
    (cs ++ mark :: rest).takeWhile (· ≠ mark) = cs := by
  rw [List.takeWhile_append_of_pos fun c hc => by simpa using ne_of_mem_of_not_mem hc h,
    List.takeWhile_cons_of_neg (by simp), List.append_nil]

theorem dropWhile_append_mark (h : mark ∉ cs) (rest : List Char) :
    (cs ++ mark :: rest).dropWhile (· ≠ mark) = mark :: rest := by
  rw [List.dropWhile_append_of_pos fun c hc => by simpa using ne_of_mem_of_not_mem hc h,
    List.dropWhile_cons_of_neg (by simp)]

theorem dropWhile_eq_nil_of_notMem (h : mark ∉ cs) : cs.dropWhile (· ≠ mark) = [] :=
  List.dropWhile_eq_nil_iff.2 fun c hc => by simpa using ne_of_mem_of_not_mem hc h

/-- What is put together with a separator consists of the separator and the parts. -/
theorem eq_or_mem_of_mem_intercalate {c : Char} {parts : List (List Char)}
    (h : c ∈ [mark].intercalate parts) : c = mark ∨ ∃ t ∈ parts, c ∈ t := by
  induction parts with
  | nil => cases h
  | cons t ts ih =>
    cases ts with
    | nil => exact .inr ⟨t, List.mem_cons_self .., by simpa using h⟩
    | cons t' ts =>
      rw [List.intercalate_cons_cons, List.mem_append, List.mem_append, List.mem_singleton] at h
      rcases h with (h | h) | h
      · exact .inr ⟨t, List.mem_cons_self .., h⟩
      · exact .inl h
      · exact (ih h).imp_right fun ⟨u, hu, hc⟩ => ⟨u, List.mem_cons_of_mem _ hu, hc⟩

end Marks

namespace Requirement

variable {r : Requirement}

/-- What the term of a plain requirement looks like: the key, a word for the operator and the values
in parentheses; or the key alone; or the key behind an exclamation mark. -/
theorem IsPlain.term_cases (h : r.IsPlain) :
    (∃ word : List Char, (∀ c ∈ word, LabelSelector.isPlain c) ∧ r.values.getD [] ≠ [] ∧
      r.term.toList = r.key.toList ++ ' ' :: (word ++ ' ' :: '(' ::
        ([','].intercalate ((r.values.getD []).map String.toList) ++ [')'])) ∧
      r.operator = if word = ['i', 'n'] then "In" else "NotIn") ∨
    (r.term.toList = r.key.toList ∧ r.filled = ⟨r.key, "Exists", some []⟩) ∨
    (r.term.toList = '!' :: r.key.toList ∧ r.filled = ⟨r.key, "DoesNotExist", some []⟩) := by
  obtain ⟨key, operator, values⟩ := r
  rcases h.operator with ⟨rfl | rfl, hne⟩ | ⟨rfl | rfl, hnone⟩
  · refine .inl ⟨['i', 'n'], by simp [LabelSelector.isPlain], hne, ?_, rfl⟩
    simp [term, valueText, String.toList_append, String.toList_intercalate]
  · refine .inl ⟨['n', 'o', 't', 'i', 'n'], by simp [LabelSelector.isPlain], hne, ?_, by simp⟩
    simp [term, valueText, String.toList_append, String.toList_intercalate]
  · exact .inr (.inl ⟨by simp [term], by simp [filled, hnone]⟩)
  · exact .inr (.inr ⟨by simp [term, String.toList_append], by simp [filled, hnone]⟩)

/-- The term of a plain requirement shows it. -/
theorem ofPiece_term (h : r.IsPlain) : ofPiece r.term.toList = r.filled := by
  have hblank : ' ' ∉ r.key.toList := h.key.notMem rfl
  have hmark : '!' ∉ r.key.toList := h.key.notMem rfl
  unfold ofPiece
  rcases h.term_cases with
    ⟨word, hword, hne, hterm, hoperator⟩ | ⟨hterm, hfilled⟩ | ⟨hterm, hfilled⟩
  · have hwordBlank : ' ' ∉ word := fun hmem => absurd (hword _ hmem) (by decide)
    have hcomma : ∀ t ∈ (r.values.getD []).map String.toList, ',' ∉ t := by
      intro t ht
      obtain ⟨v, hv, rfl⟩ := List.mem_map.1 ht
      exact (h.values v hv).notMem rfl
    rw [hterm, dropWhile_append_mark hblank, takeWhile_append_mark hblank]
    simp only [takeWhile_append_mark hwordBlank, dropWhile_append_mark hwordBlank,
      List.drop_succ_cons, List.drop_zero, List.dropLast_concat]
    rw [List.splitOn_intercalate ',' hcomma (by simpa using hne)]
    simp [filled, hoperator]
  · rw [hterm, hfilled, dropWhile_eq_nil_of_notMem hblank]
    dsimp only
    split
    · next key hkey => exact absurd (hkey ▸ List.mem_cons_self ..) hmark
    · rw [String.ofList_toList]
  · have hboth : ' ' ∉ '!' :: r.key.toList := by simpa using hblank
    rw [hterm, hfilled, dropWhile_eq_nil_of_notMem hboth]
    simp

/-- The values of a plain requirement, as its term shows them, are plain but for the commas. -/
theorem IsPlain.of_mem_values (h : r.IsPlain) {c : Char}
    (hc : c ∈ [','].intercalate ((r.values.getD []).map String.toList)) :
    c = ',' ∨ LabelSelector.isPlain c :=
  (eq_or_mem_of_mem_intercalate hc).imp_right fun ⟨t, ht, hct⟩ => by
    obtain ⟨v, hv, rfl⟩ := List.mem_map.1 ht
    exact h.values v hv c hct

/-- The term of a plain requirement is not cut, for its commas stand in parentheses. -/
theorem IsPlain.uncut_term (h : r.IsPlain) : Query.Uncut 0 r.term.toList 0 := by
  have hkey : Query.Uncut 0 r.key.toList 0 := LabelSelector.uncut_of_isPlain h.key 0
  rcases h.term_cases with ⟨word, hword, -, hterm, -⟩ | ⟨hterm, -⟩ | ⟨hterm, -⟩ <;> rw [hterm]
  · have hvalues : Query.Uncut 1 ([','].intercalate ((r.values.getD []).map String.toList)) 1 :=
      .of_forall fun c hc => by
        rcases h.of_mem_values hc with rfl | hplain
        · exact ⟨rfl, fun _ => by decide⟩
        · obtain ⟨hcomma, -, -, hopen, hclose, -⟩ := LabelSelector.isPlain_iff.1 hplain
          exact ⟨by simp [Query.nesting, hopen, hclose], fun e => absurd e hcomma⟩
    refine hkey.append (.cons (by decide) ?_)
    refine (LabelSelector.uncut_of_isPlain hword 0).append ?_
    refine .cons (by decide) (.cons (by decide) ?_)
    exact hvalues.append (.cons (by decide) .nil)
  · exact hkey
  · exact .cons (by decide) hkey

theorem IsPlain.term_ne_nil (h : r.IsPlain) : r.term.toList ≠ [] := by
  rcases h.term_cases with ⟨word, -, -, hterm, -⟩ | ⟨hterm, -⟩ | ⟨hterm, -⟩ <;> rw [hterm]
  · simp
  · simpa using h.key_ne
  · simp

/-- The term of a plain requirement is no label value. -/
theorem IsPlain.equals_notMem_term (h : r.IsPlain) : '=' ∉ r.term.toList := by
  have hkey : '=' ∉ r.key.toList := LabelSelector.IsPlainText.notMem h.key rfl
  rcases h.term_cases with ⟨word, hword, -, hterm, -⟩ | ⟨hterm, -⟩ | ⟨hterm, -⟩ <;> rw [hterm]
  · intro hmem
    simp only [List.mem_append, List.mem_cons, List.not_mem_nil, or_false] at hmem
    rcases hmem with hmem | hmem | hmem | hmem | hmem | hmem | hmem
    · exact hkey hmem
    · cases hmem
    · exact absurd (hword _ hmem) (by decide)
    · cases hmem
    · cases hmem
    · rcases h.of_mem_values hmem with hmem | hmem <;> cases hmem
    · cases hmem
  · exact hkey
  · simpa using hkey

end Requirement

namespace LabelSelector

variable {s s' : LabelSelector}

/-! ### Reading a selector -/

theorem toList_labelTerm (e : String × String) :
    (e.1 ++ "=" ++ e.2).toList = e.1.toList ++ '=' :: e.2.toList := by
  simp [String.toList_append]

/-- The pieces that the server cuts the text of a plain selector into are its terms. -/
theorem pieces_expression (h : s.IsPlain) :
    Query.pieces 0 s.expression.toList = s.terms.map String.toList := by
  rw [expression, String.toList_intercalate]
  refine Query.pieces_intercalate fun t ht => ?_
  obtain ⟨term, hterm, rfl⟩ := List.mem_map.1 ht
  rcases List.mem_append.1 hterm with hterm | hterm
  · obtain ⟨e, he, rfl⟩ := List.mem_map.1 hterm
    obtain ⟨-, hkey, hvalue⟩ := h.labels e he
    rw [toList_labelTerm]
    refine ⟨(uncut_of_isPlain hkey 0).append (.cons (by decide) ?_), by simp⟩
    exact uncut_of_isPlain hvalue 0
  · obtain ⟨r, hr, rfl⟩ := List.mem_map.1 hterm
    exact ⟨(h.requirements r hr).uncut_term, (h.requirements r hr).term_ne_nil⟩

theorem labelOfPiece_labelTerm {e : String × String} (h : IsPlainText e.1) :
    labelOfPiece (e.1 ++ "=" ++ e.2).toList = e := by
  rw [toList_labelTerm, labelOfPiece, takeWhile_append_mark (h.notMem rfl),
    dropWhile_append_mark (h.notMem rfl)]
  simp

/-- A plain selector is read off its text: the terms with `=` are its labels, and the others its
requirements. -/
theorem ofExpression_expression (h : s.IsPlain) : ofExpression s.expression = s.filled := by
  set entries := (s.matchLabels.getD KeyMap.empty).entries with hentries
  set rs := s.matchExpressions.getD [] with hrs
  have hterms : s.terms.map String.toList =
      entries.map (fun e => (e.1 ++ "=" ++ e.2).toList) ++ rs.map fun r => r.term.toList := by
    rw [terms, List.map_append, List.map_map, List.map_map]
    rfl
  have hlabels : ∀ p ∈ entries.map (fun e => (e.1 ++ "=" ++ e.2).toList), '=' ∈ p := by
    intro p hp
    obtain ⟨e, -, rfl⟩ := List.mem_map.1 hp
    simp
  have hrequirements : ∀ p ∈ rs.map (fun r => r.term.toList), '=' ∉ p := by
    intro p hp
    obtain ⟨r, hr, rfl⟩ := List.mem_map.1 hp
    exact (h.requirements r hr).equals_notMem_term
  have hfirst : (s.terms.map String.toList).filter (·.contains '=') =
      entries.map fun e => (e.1 ++ "=" ++ e.2).toList := by
    rw [hterms, List.filter_append, List.filter_eq_self.2 (by simpa using hlabels),
      List.filter_eq_nil_iff.2 (by simpa using hrequirements), List.append_nil]
  have hsecond : (s.terms.map String.toList).filter (!·.contains '=') =
      rs.map fun r => r.term.toList := by
    rw [hterms, List.filter_append, List.filter_eq_nil_iff.2 (by simpa using hlabels),
      List.filter_eq_self.2 (by simpa using hrequirements), List.nil_append]
  rw [ofExpression, pieces_expression h]
  simp only [hfirst, hsecond, List.map_map, filled, mk.injEq, Option.some.injEq]
  constructor
  · have hread : entries.map (labelOfPiece ∘ fun e => (e.1 ++ "=" ++ e.2).toList) = entries :=
      (List.map_congr_left fun e he => labelOfPiece_labelTerm (h.labels e he).2.1).trans
        (List.map_id _)
    rw [hread, hentries, KeyMap.ofList_entries]
  · exact List.map_congr_left fun r hr => Requirement.ofPiece_term (h.requirements r hr)

theorem expression_filled (s : LabelSelector) : s.filled.expression = s.expression := by
  have hterm : ∀ r : Requirement, r.filled.term = r.term := fun _ => rfl
  rw [expression, expression, terms, terms]
  simp [filled, hterm, Function.comp_def]

/-- Two selectors have the same text exactly if they ask for the same labels and have the same
requirements in the same order; a list or map that is absent counts as an empty one. -/
theorem expression_eq_iff (h : s.IsPlain) (h' : s'.IsPlain) :
    s.expression = s'.expression ↔ s.filled = s'.filled := by
  constructor
  · intro htext
    rw [← ofExpression_expression h, ← ofExpression_expression h', htext]
  · intro hfilled
    rw [← expression_filled s, ← expression_filled s', hfilled]

/-- A selector with a label without value, with an empty text among the values, and without the
lists that it has no use for. -/
def sparse : LabelSelector where
  matchLabels := some (KeyMap.ofList [("app", "web"), ("example.com/tier", "")])
  matchExpressions := some [⟨"env", "In", some ["", "prod"]⟩, ⟨"zone", "NotIn", some [""]⟩,
    ⟨"shop", "Exists", none⟩, ⟨"legacy", "DoesNotExist", none⟩]

/-- The same with empty lists. -/
def padded : LabelSelector where
  matchLabels := some (KeyMap.ofList [("app", "web"), ("example.com/tier", "")])
  matchExpressions := some [⟨"env", "In", some ["", "prod"]⟩, ⟨"zone", "NotIn", some [""]⟩,
    ⟨"shop", "Exists", some []⟩, ⟨"legacy", "DoesNotExist", some []⟩]

/-- The same with two values in the other order. -/
def swapped : LabelSelector where
  matchLabels := some (KeyMap.ofList [("app", "web"), ("example.com/tier", "")])
  matchExpressions := some [⟨"env", "In", some ["prod", ""]⟩, ⟨"zone", "NotIn", some [""]⟩,
    ⟨"shop", "Exists", none⟩, ⟨"legacy", "DoesNotExist", none⟩]

theorem expression_eq_iff_sparse :
    sparse.IsPlain ∧ padded.IsPlain ∧ swapped.IsPlain ∧
      (sparse ≠ padded ∧ sparse.expression = padded.expression) ∧
      (sparse.filled ≠ swapped.filled ∧ sparse.expression ≠ swapped.expression) := by
  have hrequirement : ∀ s ∈ [sparse, padded, swapped], ∀ r ∈ s.matchExpressions.getD [],
      r.IsPlain := fun s hs r hr =>
    ⟨by revert s r; decide +kernel, by revert s r; decide +kernel, by revert s r; decide +kernel,
      by revert s r; decide +kernel⟩
  have hsparse : sparse.IsPlain := ⟨by decide +kernel, hrequirement _ (by simp)⟩
  have hpadded : padded.IsPlain := ⟨by decide +kernel, hrequirement _ (by simp)⟩
  have hswapped : swapped.IsPlain := ⟨by decide +kernel, hrequirement _ (by simp)⟩
  have hfilled : sparse.filled ≠ swapped.filled := by decide +kernel
  refine ⟨hsparse, hpadded, hswapped, ⟨by decide +kernel, ?_⟩, hfilled, ?_⟩
  · exact (expression_eq_iff hsparse hpadded).2 rfl
  · intro htext
    exact hfilled ((expression_eq_iff hsparse hswapped).1 htext)

example : sparse.expression =
    "app=web,example.com/tier=,env in (,prod),zone notin (),shop,!legacy" := by
  decide +kernel

end LabelSelector

end CanaryRouting
