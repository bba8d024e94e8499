import DocumentStore.Proofs.Query.Nesting
import Mathlib.Data.List.Induction

/-! The grammar of filter text.

A comparison is a path, an operator and one scalar, or a path and the scalars of a list in parentheses; a
filter is a comparison, or filters in parentheses with one connective between them. Filter text follows the
grammar exactly if every leaf that asks for no membership compares with one scalar
(`Criteria.isFilter_filterText_iff`).

That it does not follow otherwise is read from the end of the text. From its front, a string with a
backslash may seem to go on behind its end; but the opening quote of a string is the last quote before its
end that no backslash stands before, whatever the string and whatever paths hold. So the last scalar of a
text is determined, and with it what stands before (`Literal.IsScalar.append_inj`). -/
namespace DocumentStore

/-! ### Filters -/

/-- The text of one scalar. -/
def Literal.IsScalar (text : String) : Prop := ∃ t : Term, t.isArray = false ∧ text = Literal.text t

/-- The text of a comparison of a path. -/
inductive IsComparison (path : String) : String → Prop
  | relation {symbol : Symbol} {scalar : String} : symbol ∈ [.eq, .lt, .gt, .lte, .gte] →
      Literal.IsScalar scalar → IsComparison path (path ++ " " ++ symbol.text ++ " " ++ scalar)
  | membership {scalars : List String} : scalars ≠ [] → (∀ s ∈ scalars, Literal.IsScalar s) →
      IsComparison path (path ++ " IN (" ++ ", ".intercalate scalars ++ ")")

/-- The text of a filter that has the leaves and joins of a tree. -/
inductive Criteria.IsFilter (a : Aliases) : Criteria → String → Prop
  | comparison {l : Leaf} {text : String} :
      IsComparison (l.storedPath a) text → IsFilter a (.leaf l) text
  | join {op : Connective} {terms : List Criteria} {parent : Option String} {filters : List String} :
      filters ≠ [] → List.Forall₂ (IsFilter a) terms filters →
      IsFilter a (.join op terms parent) ("(" ++ (Clause.separator op).intercalate filters ++ ")")

/-- The leaf asks for membership, or compares with one scalar, in a list or not. -/
def Leaf.HasOneScalar (l : Leaf) : Prop := l.op ≠ .member → ∀ t ∈ l.operand, t.elements.length = 1

instance : DecidablePred Leaf.HasOneScalar := fun l =>
  inferInstanceAs (Decidable (l.op ≠ .member → ∀ t ∈ l.operand, t.elements.length = 1))

/-! ### The end of a text -/

namespace Literal

/-- What stands between the quotes of a quoted string, read from its end. -/
def backwards (s : List Char) : List Char := s.flatMap fun c => (escape c).reverse

theorem reverse_escaped (s : List Char) : (escaped s).reverse = backwards s.reverse :=
  List.reverse_flatMap ..

/-- Read from its end, a string goes on over a quote exactly if a backslash stands before that. -/
theorem backwards_append_inj {s s' rest rest' : List Char} (hrest : Text.Ends (· ≠ '\\') rest)
    (hrest' : Text.Ends (· ≠ '\\') rest')
    (h : backwards s ++ '\'' :: rest = backwards s' ++ '\'' :: rest') : rest = rest' := by
  have hquote (s : List Char) : backwards ('\'' :: s) = '\'' :: '\\' :: backwards s := rfl
  have hother {c : Char} (hc : c ≠ '\'') (s : List Char) : backwards (c :: s) = c :: backwards s := by
    simp [backwards, escape, hc]
  induction s generalizing s' with
  | nil =>
    cases s' with
    | nil => exact (List.cons.inj h).2
    | cons c' t' =>
      by_cases hc' : c' = '\''
      · subst hc'
        rw [hquote] at h
        rw [(List.cons.inj h).2] at hrest
        exact absurd rfl hrest
      · rw [hother hc'] at h
        exact absurd (List.cons.inj h).1.symm hc'
  | cons c t ih =>
    by_cases hc : c = '\''
    · subst hc
      rw [hquote] at h
      cases s' with
      | nil =>
        rw [← (List.cons.inj h).2] at hrest'
        exact absurd rfl hrest'
      | cons c' t' =>
        by_cases hc' : c' = '\''
        · subst hc'
          rw [hquote] at h
          exact ih (List.cons.inj (List.cons.inj h).2).2
        · rw [hother hc'] at h
          exact absurd (List.cons.inj h).1.symm hc'
    · rw [hother hc] at h
      cases s' with
      | nil => exact absurd (List.cons.inj h).1 hc
      | cons c' t' =>
        by_cases hc' : c' = '\''
        · subst hc'
          rw [hquote] at h
          exact absurd (List.cons.inj h).1 hc
        · rw [hother hc'] at h
          exact ih (List.cons.inj h).2

theorem plain_ne_empty (x : Float) : Decimal.plain x ≠ "" := by
  have hpositional (d : Decimal) : d.positional ≠ [] := by
    have hdigits : d.digits ≠ [] := Nat.toDigits_ne_nil
    unfold Decimal.positional
    simp only
    split
    · simp [hdigits]
    · split <;> simp
  unfold Decimal.plain
  split
  · decide
  · split <;> unfold Decimal.signed <;> split <;> simp [hpositional]

/-- The text is a word, with nothing in it that stands before scalars or between them. -/
def IsBare (text : String) : Prop := text ≠ "" ∧ ∀ c ∈ text.toList, Text.IsWordChar c

-- The characters of the text are tried, not all that there are.
instance : DecidablePred IsBare := fun _ => @instDecidableAnd _ _ inferInstance (List.decidableBAll _ _)

/-- A scalar is a word or a quoted string. -/
theorem IsScalar.bare_or_quote {text : String} (h : IsScalar text) :
    IsBare text ∨ ∃ s, text = quote s := by
  obtain ⟨t, hscalar, rfl⟩ := h
  cases t with
  | null => exact .inl (by decide)
  | boolean b => cases b <;> exact .inl (by decide)
  | string s => exact .inr ⟨s, String.intercalate_singleton⟩
  | date t => exact .inr ⟨t.preciseText, String.intercalate_singleton⟩
  | integer n =>
    refine .inl ⟨fun hempty => (Term.isWord_integer n).1 (String.toList_eq_nil_iff.2 hempty), ?_⟩
    intro c hc
    rw [Term.text_integer] at hc
    exact (isDigit_of_mem_toString_int hc).elim (.inr ∘ .inl) Text.isWordChar_of_isDigit
  | double x =>
    have htext : Literal.text (.double x) = Decimal.plain x := String.intercalate_singleton
    rw [htext]
    exact .inl ⟨plain_ne_empty x, fun _ => Decimal.isWordChar_of_mem_plain⟩
  | strings | integers | doubles | booleans | dates => cases hscalar

/-- What stands before a scalar: a blank, or the parenthesis before a list. -/
def Opens (c : Char) : Prop := c = ' ' ∨ c = '('

theorem IsBare.not_opens {w : String} (h : IsBare w) : ∀ c ∈ w.toList.reverse, ¬Opens c := by
  rintro c hmem (rfl | rfl)
  · exact absurd (h.2 _ (List.mem_reverse.1 hmem)) (by decide)
  · exact absurd (h.2 _ (List.mem_reverse.1 hmem)) (by decide)

/-- A word does not end with a quote. -/
theorem IsBare.reverse_append_ne {w : String} (h : IsBare w) (rest quoted : List Char) :
    w.toList.reverse ++ rest ≠ '\'' :: quoted := by
  obtain ⟨last, others, hlast⟩ := List.exists_cons_of_ne_nil
    (List.reverse_ne_nil_iff.2 fun hnil => h.1 (String.toList_eq_nil_iff.1 hnil))
  have hchar := h.2 last (List.mem_reverse.1 (hlast ▸ List.mem_cons_self))
  rw [hlast]
  intro hsame
  rw [(List.cons.inj hsame).1] at hchar
  exact absurd hchar (by decide)

theorem reverse_quote_append (s : String) (rest : List Char) : (quote s).toList.reverse ++ rest =
    '\'' :: (backwards s.toList.reverse ++ '\'' :: rest) := by
  simp [toList_quote, reverse_escaped]

/-- **The last scalar of a text is determined, and so is what stands before it.** -/
theorem IsScalar.append_inj {s s' : String} (h : IsScalar s) (h' : IsScalar s') {c c' : Char}
    (hc : Opens c) (hc' : Opens c') {front front' : List Char}
    (heq : front ++ c :: s.toList = front' ++ c' :: s'.toList) : front = front' ∧ c = c' := by
  have hback : s.toList.reverse ++ c :: front.reverse = s'.toList.reverse ++ c' :: front'.reverse := by
    simpa using congrArg List.reverse heq
  have hsame : c :: front.reverse = c' :: front'.reverse := by
    obtain hs | ⟨x, rfl⟩ := h.bare_or_quote
    · obtain hs' | ⟨x', rfl⟩ := h'.bare_or_quote
      · have hends {c : Char} (hc : Opens c) (rest : List Char) : Text.Ends Opens (c :: rest) := hc
        exact (Text.append_inj_of_word hs.not_opens hs'.not_opens (hends hc _) (hends hc' _) hback).2
      · rw [reverse_quote_append] at hback
        exact absurd hback (hs.reverse_append_ne _ _)
    · rw [reverse_quote_append] at hback
      obtain hs' | ⟨x', rfl⟩ := h'.bare_or_quote
      · exact absurd hback.symm (hs'.reverse_append_ne _ _)
      · rw [reverse_quote_append] at hback
        have hends {c : Char} (hc : Opens c) (rest : List Char) : Text.Ends (· ≠ '\\') (c :: rest) := by
          show c ≠ '\\'
          obtain rfl | rfl := hc <;> decide
        exact backwards_append_inj (hends hc _) (hends hc' _) (List.cons.inj hback).2
  obtain ⟨hchar, hfront⟩ := List.cons.inj hsame
  exact ⟨List.reverse_injective hfront, hchar⟩

/-- A scalar ends neither with a blank nor with a parenthesis. -/
theorem IsScalar.exists_getLast? {s : String} (h : IsScalar s) :
    ∃ c, s.toList.getLast? = some c ∧ c ≠ ' ' ∧ c ≠ ')' := by
  obtain ⟨hne, hchars⟩ | ⟨x, rfl⟩ := h.bare_or_quote
  · have hnil : s.toList ≠ [] := fun hnil => hne (String.toList_eq_nil_iff.1 hnil)
    have hlast := hchars _ (List.getLast_mem hnil)
    refine ⟨_, List.getLast?_eq_some_getLast hnil, fun hblank => ?_, fun hclose => ?_⟩
    · exact absurd (hblank ▸ hlast) (by decide)
    · exact absurd (hclose ▸ hlast) (by decide)
  · refine ⟨'\'', ?_, by decide, by decide⟩
    rw [toList_quote, ← List.cons_append, List.getLast?_concat]

theorem intercalate_concat (separator last : String) {xs : List String} (h : xs ≠ []) :
    separator.intercalate (xs ++ [last]) = separator.intercalate xs ++ separator ++ last := by
  induction xs with
  | nil => exact absurd rfl h
  | cons x rest ih =>
    cases rest with
    | nil => simp
    | cons y rest =>
      rw [List.cons_append, List.cons_append, String.intercalate_cons_cons, ← List.cons_append,
        ih (List.cons_ne_nil _ _), String.intercalate_cons_cons]
      simp only [String.append_assoc]

theorem getLast?_scalars_ne {xs : List String} (h : ∀ s ∈ xs, IsScalar s) :
    (", ".intercalate xs).toList.getLast? ≠ some ')' := by
  obtain rfl | ⟨ys, x, rfl⟩ := xs.eq_nil_or_concat'
  · simp
  · obtain ⟨c, hlast, -, hclose⟩ := (h x (by simp)).exists_getLast?
    by_cases hys : ys = []
    · simp [hys, hlast, hclose]
    · rw [intercalate_concat _ _ hys, String.toList_append, List.getLast?_append, hlast]
      simpa using hclose

/-- The last scalar of a list stands behind the parenthesis that opens the list, or behind a comma. -/
theorem split_last_scalar (front : List Char) (ys : List String) (last : String) :
    ∃ before c, front ++ '(' :: (", ".intercalate (ys ++ [last])).toList = before ++ c :: last.toList ∧
      ((c = '(' ∧ ys = [] ∧ before = front) ∨
        (c = ' ' ∧ ys ≠ [] ∧ before = front ++ '(' :: (", ".intercalate ys).toList ++ [','])) := by
  by_cases hys : ys = []
  · subst hys
    exact ⟨front, '(', by simp, .inl ⟨rfl, rfl, rfl⟩⟩
  · refine ⟨_, ' ', ?_, .inr ⟨rfl, hys, rfl⟩⟩
    rw [intercalate_concat _ _ hys]
    simp

/-- What stands before the last list of a text is determined. -/
theorem append_inj_of_scalars {xs xs' : List String} (hxs : xs ≠ []) (hxs' : xs' ≠ [])
    (h : ∀ s ∈ xs, IsScalar s) (h' : ∀ s ∈ xs', IsScalar s) {front front' : List Char}
    (heq : front ++ '(' :: (", ".intercalate xs).toList = front' ++ '(' :: (", ".intercalate xs').toList) :
    front = front' := by
  induction xs using List.reverseRecOn generalizing xs' with
  | nil => exact absurd rfl hxs
  | append_singleton ys x ih =>
    obtain rfl | ⟨ys', x', rfl⟩ := xs'.eq_nil_or_concat'
    · exact absurd rfl hxs'
    · obtain ⟨before, c, hsplit, hc⟩ := split_last_scalar front ys x
      obtain ⟨before', c', hsplit', hc'⟩ := split_last_scalar front' ys' x'
      have hopens : Opens c := hc.elim (fun hc => .inr hc.1) fun hc => .inl hc.1
      have hopens' : Opens c' := hc'.elim (fun hc => .inr hc.1) fun hc => .inl hc.1
      rw [hsplit, hsplit'] at heq
      obtain ⟨rfl, rfl⟩ := (h x (by simp)).append_inj (h' x' (by simp)) hopens hopens' heq
      obtain ⟨rfl, rfl, hbefore⟩ | ⟨rfl, hys, hbefore⟩ := hc
      · obtain ⟨-, -, hbefore'⟩ | ⟨hc, -⟩ := hc'
        · exact hbefore.symm.trans hbefore'
        · exact absurd hc (by decide)
      · obtain ⟨hc, -⟩ | ⟨-, hys', hbefore'⟩ := hc'
        · exact absurd hc (by decide)
        · exact ih hys hys' (fun s hs => h s (by simp [hs])) (fun s hs => h' s (by simp [hs]))
            (List.append_cancel_right (hbefore.symm.trans hbefore'))

theorem isScalar_of_mem_elements {t : Term} {s : String} (h : s ∈ t.elements.map Literal.text) :
    IsScalar s := by
  obtain ⟨e, he, rfl⟩ := List.mem_map.1 h
  refine ⟨e, ?_, rfl⟩
  cases t with
  | strings | integers | doubles | booleans | dates =>
    obtain ⟨_, -, rfl⟩ := List.mem_map.1 he
    rfl
  | null | string | integer | double | boolean | date =>
    obtain rfl := List.mem_singleton.1 he
    rfl

end Literal

/-! ### Comparisons -/

section Comparisons

variable {a : Aliases} {l : Leaf} {clause : Clause} {path text : String} {front front' : List Char}

theorem getLast?_relation (front : List Char) (path : String) (symbol : Symbol) (operand : String) :
    (front ++ (path ++ " " ++ symbol.text ++ " " ++ operand).toList).getLast? =
      operand.toList.getLast?.or (some ' ') := by
  rw [String.toList_append, ← List.append_assoc, List.getLast?_append, String.toList_append,
    ← List.append_assoc]
  exact congrArg _ List.getLast?_concat

theorem getLast?_membership (front : List Char) (path listed : String) :
    (front ++ (path ++ " IN (" ++ listed ++ ")").toList).getLast? = some ')' := by
  rw [String.toList_append, ← List.append_assoc]
  exact List.getLast?_concat

/-- Scalars behind an operator are one scalar if they end a text as one does, and what stands before the
path is then determined. -/
theorem append_inj_of_relation {symbol symbol' : Symbol} (hsymbol : symbol' ∈ [.eq, .lt, .gt, .lte, .gte])
    {scalars : List String} {scalar : String} (h : ∀ s ∈ scalars, Literal.IsScalar s)
    (h' : Literal.IsScalar scalar)
    (heq : front ++ (path ++ " " ++ symbol.text ++ " " ++ ", ".intercalate scalars).toList =
      front' ++ (path ++ " " ++ symbol'.text ++ " " ++ scalar).toList) :
    front = front' ∧ scalars.length = 1 := by
  have hchars (front : List Char) (symbol : Symbol) (s : String) :
      front ++ (path ++ " " ++ symbol.text ++ " " ++ s).toList =
        (front ++ path.toList ++ ' ' :: symbol.text.toList) ++ ' ' :: s.toList := by simp
  obtain rfl | ⟨ys, x, rfl⟩ := scalars.eq_nil_or_concat'
  · obtain ⟨c, hlast, hblank, -⟩ := h'.exists_getLast?
    have hends := congrArg List.getLast? heq
    rw [getLast?_relation, getLast?_relation, hlast, Option.some_or] at hends
    exact absurd (Option.some.inj hends).symm hblank
  · have hx : Literal.IsScalar x := h x (by simp)
    rw [hchars, hchars] at heq
    by_cases hys : ys = []
    · subst hys
      rw [List.nil_append, String.intercalate_singleton] at heq
      have hbefore := congrArg List.reverse (hx.append_inj h' (.inl rfl) (.inl rfl) heq).1
      simp only [List.reverse_append, List.reverse_cons, List.append_assoc, List.singleton_append] at hbefore
      have hblank (symbol : Symbol) : ' ' ∉ symbol.text.toList.reverse := fun hmem =>
        symbol.blank_not_mem_text (List.mem_reverse.1 hmem)
      have hpath := (Text.append_inj_of_blank (hblank _) (hblank _) hbefore).2
      exact ⟨List.reverse_injective (List.append_cancel_left hpath), rfl⟩
    · -- The comma before the last scalar would have to end the operator.
      have hcomma : (front ++ path.toList ++ ' ' :: symbol.text.toList) ++
          ' ' :: (", ".intercalate ys ++ ", " ++ x).toList =
            (front ++ path.toList ++ ' ' :: symbol.text.toList ++ ' ' :: (", ".intercalate ys).toList ++
              [',']) ++ ' ' :: x.toList := by simp
      rw [Literal.intercalate_concat _ _ hys, hcomma] at heq
      have hbefore := congrArg List.getLast? (hx.append_inj h' (.inl rfl) (.inl rfl) heq).1
      rw [List.getLast?_concat] at hbefore
      simp only [List.mem_cons, List.not_mem_nil, or_false] at hsymbol
      obtain rfl | rfl | rfl | rfl | rfl := hsymbol <;> simp [Symbol.text] at hbefore

/-- A comparison is a path, an operator and the scalars of the operand. -/
theorem Leaf.text_clause_cases (hop : l.op.isRelation = true) (h : l.clause a = .ok clause) :
    ∃ t ∈ l.operand,
      (l.op = .member ∧ t.elements ≠ [] ∧ clause.text =
        l.storedPath a ++ " IN (" ++ ", ".intercalate (t.elements.map Literal.text) ++ ")") ∨
      (l.op ≠ .member ∧ ∃ symbol ∈ [Symbol.eq, .lt, .gt, .lte, .gte], clause.text =
        l.storedPath a ++ " " ++ symbol.text ++ " " ++ ", ".intercalate (t.elements.map Literal.text)) := by
  obtain ⟨symbol, t, hsymbol, hoperand, hlist, rfl⟩ := clause_eq_ok_iff.1 h
  refine ⟨t, hoperand, ?_⟩
  rw [← Term.text_eq_intercalate_elements]
  cases hl : l.op with
  | member =>
    rw [hl] at hsymbol
    cases hsymbol
    exact .inl ⟨rfl, (hlist hl).2, rfl⟩
  | eq | lt | lte | gt | gte =>
    rw [hl] at hsymbol
    cases hsymbol
    exact .inr ⟨nofun, _, by decide, rfl⟩
  | ne | between =>
    rw [hl] at hsymbol
    cases hsymbol
  | and | or | not | contains =>
    rw [hl] at hop
    cases hop

/-- A leaf that asks for membership or compares with one scalar is written as a comparison. -/
theorem Leaf.isComparison_clause (hop : l.op.isRelation = true) (h : l.clause a = .ok clause)
    (hone : l.HasOneScalar) : IsComparison (l.storedPath a) clause.text := by
  obtain ⟨t, ht, ⟨-, hne, htext⟩ | ⟨hmember, symbol, hsymbol, htext⟩⟩ := text_clause_cases hop h
  · rw [htext]
    exact .membership (by simpa using hne) fun _ => Literal.isScalar_of_mem_elements
  · obtain ⟨e, he⟩ := List.length_eq_one_iff.1 (hone hmember t ht)
    rw [htext, he, List.map_singleton, String.intercalate_singleton]
    exact .relation hsymbol (Literal.isScalar_of_mem_elements (by rw [he]; simp))

/-- A leaf that ends a text as a comparison of its path does is one, and what stands before it is
determined. -/
theorem Leaf.append_inj_of_isComparison (hop : l.op.isRelation = true) (h : l.clause a = .ok clause)
    (htext : IsComparison (l.storedPath a) text)
    (heq : front ++ clause.text.toList = front' ++ text.toList) : front = front' ∧ l.HasOneScalar := by
  have hends := congrArg List.getLast? heq
  obtain ⟨t, ht, ⟨hmember, hne, hclause⟩ | ⟨hmember, symbol, -, hclause⟩⟩ := text_clause_cases hop h
  · rw [hclause] at heq hends
    cases htext with
    | relation _ hscalar =>
      obtain ⟨c, hlast, -, hclose⟩ := hscalar.exists_getLast?
      rw [getLast?_membership, getLast?_relation, hlast, Option.some_or] at hends
      exact absurd (Option.some.inj hends).symm hclose
    | membership hne' hscalars =>
      have hchars (front : List Char) (listed : String) :
          front ++ (l.storedPath a ++ " IN (" ++ listed ++ ")").toList =
            (front ++ (l.storedPath a ++ " IN ").toList ++ '(' :: listed.toList) ++ [')'] := by simp
      rw [hchars, hchars] at heq
      have hlisted := Literal.append_inj_of_scalars (by simpa using hne) hne'
        (fun _ => Literal.isScalar_of_mem_elements) hscalars (List.append_cancel_right heq)
      exact ⟨List.append_cancel_right hlisted, fun hne => absurd hmember hne⟩
  · rw [hclause] at heq hends
    cases htext with
    | relation hsymbol hscalar =>
      obtain ⟨hfront, hlength⟩ :=
        append_inj_of_relation hsymbol (fun _ => Literal.isScalar_of_mem_elements) hscalar heq
      refine ⟨hfront, fun _ t' ht' => ?_⟩
      obtain rfl := Option.some.inj (Option.mem_def.1 ht ▸ Option.mem_def.1 ht')
      simpa using hlength
    | membership hne' hscalars =>
      have hclose := Literal.getLast?_scalars_ne fun s => Literal.isScalar_of_mem_elements (t := t)
      rw [getLast?_membership, getLast?_relation, Option.or_eq_some_iff] at hends
      obtain hends | ⟨-, hends⟩ := hends
      · exact absurd hends hclose
      · cases hends

end Comparisons

/-! ### Trees -/

namespace Criteria
open Json (Value)

variable {a : Aliases} {c : Criteria} {clause : Clause} {text : String} {front front' : List Char}

/-- A tree whose leaves ask for membership or compare with one scalar is written as a filter. -/
theorem Compiles.isFilter (h : c.Compiles a clause) (hops : c.Relations)
    (hone : ∀ l ∈ c.leaves, l.HasOneScalar) : c.IsFilter a clause.text := by
  induction c generalizing clause with
  | leaf l =>
    cases h with
    | leaf hclause =>
      have hl : l ∈ (Criteria.leaf l).leaves := List.mem_singleton_self l
      exact .comparison (Leaf.isComparison_clause (hops l hl) hclause (hone l hl))
  | join op terms parent ih =>
    cases h with
    | @join _ _ _ parts hne hparts =>
      have hterms (t : Criteria) (ht : t ∈ terms) (part : Clause) (hpart : t.Compiles a part) :
          t.IsFilter a part.text :=
        ih t ht hpart (fun l hl => hops l (mem_leaves_join ht hl)) fun l hl =>
          hone l (mem_leaves_join ht hl)
      have hfilters : List.Forall₂ (IsFilter a) terms (parts.map Clause.text) :=
        List.forall₂_map_right_iff.2 <| ((List.forall₂_and_left terms parts).2 ⟨hterms, hparts⟩).imp
          fun _ part hpart => hpart.1 part hpart.2
      rw [Clause.text, Clause.joined_eq_intercalate]
      refine .join (fun hnil => hne ?_) hfilters
      rwa [hnil, List.forall₂_nil_right_iff] at hfilters

/-- Where the text and some filter of the tree end one text, the same stands before them, and the leaves
of the tree ask for membership or compare with one scalar. -/
def EndsAlike (a : Aliases) (c : Criteria) (text : String) : Prop :=
  ∀ ⦃filter : String⦄ ⦃front front' : List Char⦄, c.IsFilter a filter →
    front ++ text.toList = front' ++ filter.toList → front = front' ∧ ∀ l ∈ c.leaves, l.HasOneScalar

/-- The parts of a join are read from the last to the first. -/
theorem append_inj_of_intercalate {separator : String} {terms : List Criteria}
    {texts filters : List String} (htexts : List.Forall₂ (EndsAlike a) terms texts)
    (hfilters : List.Forall₂ (IsFilter a) terms filters)
    (heq : front ++ (separator.intercalate texts).toList =
      front' ++ (separator.intercalate filters).toList) :
    front = front' ∧ ∀ t ∈ terms, ∀ l ∈ t.leaves, l.HasOneScalar := by
  induction htexts generalizing filters front front' with
  | nil =>
    cases hfilters
    exact ⟨List.append_cancel_right heq, nofun⟩
  | @cons t text terms texts ht hrest ih =>
    obtain ⟨filter, others, hfilter, hothers, rfl⟩ := List.forall₂_cons_left_iff.1 hfilters
    cases hrest with
    | nil =>
      cases hothers
      rw [String.intercalate_singleton, String.intercalate_singleton] at heq
      obtain ⟨hfront, hleaves⟩ := ht hfilter heq
      exact ⟨hfront, List.forall_mem_singleton.2 hleaves⟩
    | cons =>
      obtain ⟨_, _, -, -, rfl⟩ := List.forall₂_cons_left_iff.1 hothers
      have hchars (front : List Char) (first behind : String) : front ++ (first ++ separator ++ behind).toList =
          (front ++ first.toList ++ separator.toList) ++ behind.toList := by simp
      rw [String.intercalate_cons_cons, String.intercalate_cons_cons, hchars, hchars] at heq
      obtain ⟨hbefore, hbehind⟩ := ih hothers heq
      obtain ⟨hfront, hleaves⟩ := ht hfilter (List.append_cancel_right hbefore)
      exact ⟨hfront, List.forall_mem_cons.2 ⟨hleaves, hbehind⟩⟩

/-- **The text of a tree ends as no filter of the tree does, unless its leaves ask for membership or
compare with one scalar.** -/
theorem Compiles.endsAlike (h : c.Compiles a clause) (hops : c.Relations) :
    c.EndsAlike a clause.text := by
  induction c generalizing clause with
  | leaf l =>
    intro filter front front' hfilter heq
    cases h with
    | leaf hclause =>
      cases hfilter with
      | comparison hcomparison =>
        obtain ⟨hfront, hone⟩ := Leaf.append_inj_of_isComparison
          (hops l (List.mem_singleton_self l)) hclause hcomparison heq
        exact ⟨hfront, List.forall_mem_singleton.2 hone⟩
  | join op terms parent ih =>
    intro filter front front' hfilter heq
    cases h with
    | @join _ _ _ parts _ hparts =>
      cases hfilter with
      | @join _ _ _ filters _ hfilters =>
        have hterms (t : Criteria) (ht : t ∈ terms) (part : Clause) (hpart : t.Compiles a part) :
            t.EndsAlike a part.text :=
          ih t ht hpart fun l hl => hops l (mem_leaves_join ht hl)
        have htexts : List.Forall₂ (EndsAlike a) terms (parts.map Clause.text) :=
          List.forall₂_map_right_iff.2 <| ((List.forall₂_and_left terms parts).2 ⟨hterms, hparts⟩).imp
            fun _ part hpart => hpart.1 part hpart.2
        have hchars (front : List Char) (joined : String) : front ++ ("(" ++ joined ++ ")").toList =
            (front ++ ['(']) ++ joined.toList ++ [')'] := by simp
        rw [Clause.text, Clause.joined_eq_intercalate, ← Clause.separator, hchars, hchars] at heq
        obtain ⟨hbefore, hleaves⟩ :=
          append_inj_of_intercalate htexts hfilters (List.append_cancel_right heq)
        rw [leaves_join, List.forall_mem_flatMap]
        exact ⟨List.append_cancel_right hbefore, hleaves⟩

/-- **Filter text is empty or follows the grammar, leaf by leaf and join by join, exactly if every leaf but
markers asks for membership or compares with one scalar.** -/
theorem isFilter_filterText_iff {v : Value} (hread : ofValue v = .ok (some c))
    (h : c.filterText a = .ok text) :
    (text = "" ∨ ∃ kept, c.pruned = some kept ∧ kept.IsFilter a text) ↔
      ∀ l ∈ c.leaves, l.isMarker = false → l.HasOneScalar := by
  obtain ⟨result, hresult, rfl⟩ := filterText_eq_ok_iff.1 h
  have hcompiles := rel_compiles_pruned hresult
  cases hkept : c.pruned with
  | none =>
    rw [hkept] at hcompiles
    cases hcompiles
    have hmarkers := (pruned_eq_none_iff c).1 hkept
    refine iff_of_true (.inl rfl) fun l hl hm => ?_
    rw [hmarkers l hl] at hm
    cases hm
  | some kept =>
    rw [hkept] at hcompiles
    have hleaves (l : Leaf) : l ∈ kept.leaves ↔ l ∈ c.leaves ∧ l.isMarker = false := by
      have hfilter := leaves_pruned c
      rw [hkept, Option.toList_some, List.flatMap_singleton] at hfilter
      rw [hfilter, List.mem_filter, Bool.not_eq_true']
    have hops : kept.Relations := fun l hl => relations_of_ofValue hread l ((hleaves l).1 hl).1
    cases hcompiles with
    | @some _ clause hclause =>
      constructor
      · rintro (hempty | ⟨kept', hsame, hfilter⟩) l hl hm
        · exact absurd hempty (text_ne_empty hresult)
        · obtain rfl := Option.some.inj hsame
          have hends : [] ++ clause.text.toList = [] ++ clause.text.toList := rfl
          exact (hclause.endsAlike hops hfilter hends).2 l ((hleaves l).2 ⟨hl, hm⟩)
      · intro hone
        refine .inr ⟨kept, rfl, hclause.isFilter hops fun l hl => ?_⟩
        exact hone l ((hleaves l).1 hl).1 ((hleaves l).1 hl).2

/-- Markers beside and below other leaves, a list of one number and a list of strings. -/
def markedDocument : Value := .obj [("op", .str "And"), ("searchTerms", .arr [
  .obj [("left", .str "isDeleted"), ("op", .str "Eq")],
  .obj [("left", .str "n"), ("op", .str "Gt"), ("right", .arr [.int 3])],
  .obj [("op", .str "Or"), ("searchTerms", .arr [
    .obj [("left", .str "t"), ("op", .str "In"), ("right", .arr [.str "a", .str "b"])],
    .obj [("left", .str "isDeleted"), ("op", .str "Eq")]])]])]

def markedCriteria : Criteria := .join .and [
  .notDeleted,
  .leaf { op := .gt, name := "n", operand := some (.integers [3]) },
  .join .or [.leaf { op := .member, name := "t", operand := some (.strings ["a", "b"]) }, .notDeleted]]

theorem ofValue_markedDocument : ofValue markedDocument = .ok (some markedCriteria) := by
  have hnumbers : Term.ofValue (.arr [.int 3]) = .ok (.integers [3]) := rfl
  have hstrings : Term.ofValue (.arr [.str "a", .str "b"]) = .ok (.strings ["a", "b"]) := rfl
  simp [markedDocument, ofValue, joinOf, ofValues, operatorOf, termsOf, leafOf, Entries.find?,
    Operator.ofName?, Operator.all, Operator.name, bind, Except.bind, pure, Except.pure, hnumbers, hstrings,
    markedCriteria, notDeleted]
  rfl

theorem isFilter_markedCriteria :
    markedCriteria.filterText (.ofList [("t", "title")]) = .ok "(c.n > 3 AND (c.title IN ('a', 'b')))" ∧
    ∃ kept, markedCriteria.pruned = some kept ∧
      kept.IsFilter (.ofList [("t", "title")]) "(c.n > 3 AND (c.title IN ('a', 'b')))" := by
  have htext : markedCriteria.filterText (.ofList [("t", "title")]) =
      .ok "(c.n > 3 AND (c.title IN ('a', 'b')))" := rfl
  obtain hempty | hfilter := (isFilter_filterText_iff ofValue_markedDocument htext).2 (by decide)
  · exact absurd hempty (by decide)
  · exact ⟨htext, hfilter⟩

/-- Equality with a list is written without parentheses, and is no comparison. -/
theorem exists_filterText_not_isFilter : ∃ v c, ofValue v = .ok (some c) ∧
    c.filterText .empty = .ok "c.x = 1, 2" ∧
    ∀ kept, c.pruned = some kept → ¬kept.IsFilter .empty "c.x = 1, 2" := by
  let l : Leaf := { op := .eq, name := "x", operand := some (.integers [1, 2]) }
  have hread : ofValue (.obj [("left", .str "x"), ("op", .str "Eq"), ("right", .arr [.int 1, .int 2])]) =
      .ok (some (leaf l)) := by
    rw [ofValue]
    · rfl
    · exact List.cons_ne_nil _ _
  refine ⟨_, _, hread, rfl, fun kept hkept hfilter => ?_⟩
  obtain rfl : leaf l = kept := Option.some.inj hkept
  cases hfilter with
  | comparison hcomparison =>
    have hclause : l.clause .empty = .ok (.comparison "c.x" .eq (.integers [1, 2])) := rfl
    have hone : l.HasOneScalar :=
      (Leaf.append_inj_of_isComparison rfl hclause hcomparison (Eq.refl ([] ++ "c.x = 1, 2".toList))).2
    exact absurd hone (by decide)

end Criteria
end DocumentStore
