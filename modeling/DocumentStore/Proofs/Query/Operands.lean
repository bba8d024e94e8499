import DocumentStore.Proofs.Query.Pieces

/-! Operands told apart by their literals.

Where the texts of two things begin one text, a reader could take either for the other. He cannot if this
makes them the same and leaves him at the same place (`TellsApart`). Words are told apart by what ends
them, quoted strings by their closing quote, and lists by their separators if their elements are
(`forall₂_of_intercalate_eq`). So an operand is told from every other of its shape by its literal
(`Term.Legible.tellsApart`, `Term.Legible.eq_of_listed_eq`). Dates and doubles are left out here: dates
are written less exactly than they are, and doubles may look like integers. -/
namespace DocumentStore

/-! ### Words and lists -/

namespace Text

/-- Nothing stands here, or a character that ends a word. -/
def Ends (stop : Char → Prop) : List Char → Prop
  | [] => True
  | c :: _ => stop c

theorem ends_nil {stop : Char → Prop} : Ends stop [] := trivial

theorem append_inj_of_word {stop : Char → Prop} {w w' rest rest' : List Char}
    (hw : ∀ c ∈ w, ¬stop c) (hw' : ∀ c ∈ w', ¬stop c) (hrest : Ends stop rest)
    (hrest' : Ends stop rest') (h : w ++ rest = w' ++ rest') : w = w' ∧ rest = rest' := by
  induction w generalizing w' with
  | nil =>
    cases w' with
    | nil => exact ⟨rfl, h⟩
    | cons c w' =>
      subst h
      exact absurd hrest (hw' c List.mem_cons_self)
  | cons c w ih =>
    cases w' with
    | nil =>
      subst h
      exact absurd hrest' (hw c List.mem_cons_self)
    | cons c' w' =>
      obtain ⟨rfl, htail⟩ := List.cons.inj h
      obtain ⟨rfl, hsame⟩ := ih (fun d hd => hw d (List.mem_cons_of_mem c hd))
        (fun d hd => hw' d (List.mem_cons_of_mem c hd)) htail
      exact ⟨rfl, hsame⟩

theorem append_inj_of_blank {w w' rest rest' : List Char} (hw : ' ' ∉ w) (hw' : ' ' ∉ w')
    (h : w ++ ' ' :: rest = w' ++ ' ' :: rest') : w = w' ∧ rest = rest' := by
  have hword {w : List Char} (hw : ' ' ∉ w) (c : Char) (hc : c ∈ w) : ¬c = ' ' :=
    fun heq => hw (heq ▸ hc)
  have hends (rest : List Char) : Ends (· = ' ') (' ' :: rest) := rfl
  obtain ⟨hsame, hrest⟩ := append_inj_of_word (hword hw) (hword hw') (hends rest) (hends rest') h
  exact ⟨hsame, (List.cons.inj hrest).2⟩

end Text

/-- What stands behind an operand or a clause, if anything does: a blank, a comma or a parenthesis. -/
def IsStop (c : Char) : Prop := c = ' ' ∨ c = ',' ∨ c = ')'

instance : DecidablePred IsStop := fun _ => inferInstanceAs (Decidable (_ ∨ _ ∨ _))

/-- Where the texts of two things begin one text, and are not cut off within, the things are in the
relation, and what follows is the same. -/
def TellsApart {α : Type} (R : α → α → Prop) (text : α → String) (x x' : α) : Prop :=
  ∀ ⦃rest rest' : List Char⦄, Text.Ends IsStop rest → Text.Ends IsStop rest' →
    (text x).toList ++ rest = (text x').toList ++ rest' → R x x' ∧ rest = rest'

/-- A separator ends what stands before it, and is not taken for the parenthesis behind a list. -/
structure Separates (separator : String) : Prop where
  ends : ∀ rest, Text.Ends IsStop (separator.toList ++ rest)
  goesOn : ∀ rest rest', separator.toList ++ rest ≠ ')' :: rest'

theorem separates_comma : Separates ", " := ⟨fun _ => .inr (.inl rfl), nofun⟩

/-- **Two lists in parentheses that begin one text have as many parts, each told apart from its
counterpart, and one separator, if any.** -/
theorem forall₂_of_intercalate_eq {α : Type} {R : α → α → Prop} {text : α → String}
    {separator separator' : String} (hsep : Separates separator) (hsep' : Separates separator')
    (heq : ∀ {rest rest' : List Char}, separator.toList ++ rest = separator'.toList ++ rest' →
      separator = separator' ∧ rest = rest')
    {xs xs' : List α} (hxs : xs ≠ []) (hxs' : xs' ≠ [])
    (hparts : ∀ x ∈ xs, ∀ x' ∈ xs', TellsApart R text x x') {rest rest' : List Char}
    (h : (separator.intercalate (xs.map text)).toList ++ ')' :: rest =
      (separator'.intercalate (xs'.map text)).toList ++ ')' :: rest') :
    List.Forall₂ R xs xs' ∧ (separator = separator' ∨ xs.length = 1) ∧ rest = rest' := by
  have hclose : ∀ rest, Text.Ends IsStop (')' :: rest) := fun _ => .inr (.inr rfl)
  induction xs generalizing xs' with
  | nil => exact absurd rfl hxs
  | cons x ys ih =>
    obtain ⟨x', ys', rfl⟩ := List.exists_cons_of_ne_nil hxs'
    have hfirst := hparts x List.mem_cons_self x' List.mem_cons_self
    cases ys with
    | nil =>
      cases ys' with
      | nil =>
        simp only [List.map_cons, List.map_nil, String.intercalate_singleton] at h
        obtain ⟨hx, hrest⟩ := hfirst (hclose _) (hclose _) h
        exact ⟨.cons hx .nil, .inr rfl, (List.cons.inj hrest).2⟩
      | cons y' ys' =>
        simp only [List.map_cons, List.map_nil, String.intercalate_singleton,
          String.intercalate_cons_cons, String.toList_append, List.append_assoc] at h
        exact absurd (hfirst (hclose _) (hsep'.ends _) h).2.symm (hsep'.goesOn _ _)
    | cons y ys =>
      cases ys' with
      | nil =>
        simp only [List.map_cons, List.map_nil, String.intercalate_singleton,
          String.intercalate_cons_cons, String.toList_append, List.append_assoc] at h
        exact absurd (hfirst (hsep.ends _) (hclose _) h).2 (hsep.goesOn _ _)
      | cons y' ys' =>
        simp only [List.map_cons, String.intercalate_cons_cons, String.toList_append,
          List.append_assoc] at h
        obtain ⟨hx, hbehind⟩ := hfirst (hsep.ends _) (hsep'.ends _) h
        obtain ⟨hsame, hothers⟩ := heq hbehind
        have hbehindFirst : ∀ z ∈ y :: ys, ∀ z' ∈ y' :: ys', TellsApart R text z z' := fun z hz z' hz' =>
          hparts z (List.mem_cons_of_mem x hz) z' (List.mem_cons_of_mem x' hz')
        obtain ⟨hys, -, hrest⟩ :=
          ih (List.cons_ne_nil _ _) (List.cons_ne_nil _ _) hbehindFirst hothers
        exact ⟨.cons hx hys, .inl hsame, hrest⟩

/-! ### Operands -/

namespace Term

/-- The literal of the term tells all of it, and is read back if it is quoted. -/
def Legible : Term → Prop
  | null | integer _ | boolean _ | integers _ | booleans _ => True
  | string s => '\\' ∉ s.toList
  | strings ss => ∀ s ∈ ss, '\\' ∉ s.toList
  | double _ | doubles _ | date _ | dates _ => False

instance : DecidablePred Legible
  | null | integer _ | boolean _ | integers _ | booleans _ => inferInstanceAs (Decidable True)
  | string s => inferInstanceAs (Decidable ('\\' ∉ s.toList))
  | strings ss => inferInstanceAs (Decidable (∀ s ∈ ss, '\\' ∉ s.toList))
  | double _ | doubles _ | date _ | dates _ => inferInstanceAs (Decidable False)

theorem Legible.of_mem_elements {t e : Term} (h : t.Legible) (he : e ∈ t.elements) :
    e.Legible ∧ e.isArray = false := by
  cases t with
  | strings ss =>
    obtain ⟨s, hs, rfl⟩ := List.mem_map.1 he
    exact ⟨h s hs, rfl⟩
  | integers ns =>
    obtain ⟨n, -, rfl⟩ := List.mem_map.1 he
    exact ⟨trivial, rfl⟩
  | booleans bs =>
    obtain ⟨b, -, rfl⟩ := List.mem_map.1 he
    exact ⟨trivial, rfl⟩
  | null | string | integer | boolean =>
    obtain rfl := List.mem_singleton.1 he
    exact ⟨h, rfl⟩
  | double | doubles | date | dates => exact h.elim

/-- The literals that are written as they are called. -/
def keywords : List Term := [null, boolean true, boolean false]

/-- A scalar is a keyword, a number or a string. -/
theorem Legible.scalar_cases {t : Term} (h : t.Legible) (hscalar : t.isArray = false) :
    t ∈ keywords ∨ (∃ n, t = integer n) ∨ ∃ s, t = string s ∧ '\\' ∉ s.toList := by
  cases t with
  | null => exact .inl (by decide)
  | boolean b => cases b <;> exact .inl (by decide)
  | integer n => exact .inr (.inl ⟨n, rfl⟩)
  | string s => exact .inr (.inr ⟨s, rfl, h⟩)
  | double | date => exact h.elim
  | strings | integers | doubles | booleans | dates => cases hscalar

/-- The text is no quoted string, and holds nothing that could end it. -/
def IsWord (text : String) : Prop := text.toList ≠ [] ∧ ∀ c ∈ text.toList, ¬IsStop c ∧ c ≠ '\''

-- The characters of the text are tried, not all that there are.
instance : DecidablePred IsWord := fun _ => @instDecidableAnd _ _ inferInstance (List.decidableBAll _ _)

theorem isWord_of_keyword : ∀ t ∈ keywords, IsWord (Literal.text t) := by decide

/-- Numbers are told apart by their digits, -/
theorem eq_of_toString_nat_eq {m n : Nat} (h : toString m = toString n) : m = n := by
  have hdigits : Nat.toDigits 10 m = Nat.toDigits 10 n := String.ofList_inj.1 h
  calc m = Nat.ofDigitChars 10 (Nat.toDigits 10 m) 0 := Nat.ofDigitChars_ten_toDigits.symm
    _ = Nat.ofDigitChars 10 (Nat.toDigits 10 n) 0 := by rw [hdigits]
    _ = n := Nat.ofDigitChars_ten_toDigits

/-- and integers by their sign too, which is no digit. -/
theorem eq_of_toString_int_eq {a b : Int} (h : toString a = toString b) : a = b := by
  have hsign (m n : Nat) : toString m ≠ "-" ++ toString n := by
    intro heq
    have hdigit : '-'.isDigit = true := isDigit_of_mem_toString_nat (n := m) (by simp [heq])
    exact absurd hdigit (by decide)
  cases a with
  | ofNat m =>
    cases b with
    | ofNat n => exact congrArg Int.ofNat (eq_of_toString_nat_eq h)
    | negSucc n => exact absurd h (hsign m (n + 1))
  | negSucc m =>
    cases b with
    | ofNat n => exact absurd h.symm (hsign n (m + 1))
    | negSucc n =>
      have hsucc : m + 1 = n + 1 := eq_of_toString_nat_eq ((String.append_right_inj _).1 h)
      rw [Nat.succ.inj hsucc]

theorem text_integer (n : Int) : Literal.text (integer n) = toString n :=
  String.intercalate_singleton

theorem text_string (s : String) : Literal.text (string s) = Literal.quote s :=
  String.intercalate_singleton

theorem isWord_integer (n : Int) : IsWord (Literal.text (integer n)) := by
  rw [text_integer]
  refine ⟨fun hempty => ?_, fun c hc => ?_⟩
  · rw [String.toList_eq_nil_iff, Int.toString_eq_repr, Int.repr_eq_if] at hempty
    split at hempty
    · exact Nat.repr_ne_empty hempty
    · exact absurd (String.append_eq_empty_iff.1 hempty).1 (by decide)
  · have hdigit := isDigit_of_mem_toString_int hc
    refine ⟨fun hstop => ?_, fun hquote => ?_⟩
    · obtain rfl | rfl | rfl := hstop <;> exact absurd hdigit (by decide)
    · subst hquote
      exact absurd hdigit (by decide)

/-- Keywords have letters, and numbers have none. -/
theorem text_integer_ne_keyword {t : Term} (h : t ∈ keywords) (n : Int) :
    Literal.text (integer n) ≠ Literal.text t := by
  have hletter : ∀ t ∈ keywords,
      (Literal.text t).toList.any (fun c => !(c == '-' || c.isDigit)) = true := by decide
  obtain ⟨c, hc, hc'⟩ := List.any_eq_true.1 (hletter t h)
  intro heq
  rw [← heq, text_integer] at hc
  obtain rfl | hdigit := isDigit_of_mem_toString_int hc
  · cases hc'
  · rw [hdigit, Bool.or_true] at hc'
    cases hc'

theorem IsWord.append_ne_quote {text : String} (h : IsWord text) (rest quoted : List Char) :
    text.toList ++ rest ≠ '\'' :: quoted := by
  obtain ⟨hne, hchars⟩ := h
  obtain ⟨c, cs, htext⟩ := List.exists_cons_of_ne_nil hne
  rw [htext] at hchars ⊢
  exact fun heq => (hchars c List.mem_cons_self).2 (List.cons.inj heq).1

theorem text_string_ne_word {text : String} (h : IsWord text) (s : String) :
    Literal.text (string s) ≠ text := by
  intro heq
  refine h.append_ne_quote [] (Literal.escaped s.toList ++ ['\'']) ?_
  rw [List.append_nil, ← heq, text_string, Literal.toList_quote]

/-- Scalars that are no strings are written as words, and are determined by them. -/
theorem Legible.eq_of_text_eq {t t' : Term} (h : t.Legible) (h' : t'.Legible)
    (hscalar : t.isArray = false) (hscalar' : t'.isArray = false) (hword : IsWord (Literal.text t))
    (heq : Literal.text t = Literal.text t') : t = t' := by
  have hkeywords : ∀ t ∈ keywords, ∀ t' ∈ keywords, Literal.text t = Literal.text t' → t = t' := by
    decide
  obtain hkeyword | ⟨n, rfl⟩ | ⟨s, rfl, hs⟩ := h.scalar_cases hscalar
  · obtain hkeyword' | ⟨n', rfl⟩ | ⟨s', rfl, -⟩ := h'.scalar_cases hscalar'
    · exact hkeywords t hkeyword t' hkeyword' heq
    · exact absurd heq.symm (text_integer_ne_keyword hkeyword n')
    · exact absurd heq.symm (text_string_ne_word hword s')
  · obtain hkeyword' | ⟨n', rfl⟩ | ⟨s', rfl, -⟩ := h'.scalar_cases hscalar'
    · exact absurd heq (text_integer_ne_keyword hkeyword' n)
    · rw [text_integer, text_integer] at heq
      rw [eq_of_toString_int_eq heq]
    · exact absurd heq.symm (text_string_ne_word hword s')
  · exact absurd rfl (text_string_ne_word hword s)

/-- A scalar that is no string is written as a word. -/
theorem Legible.isWord_or_string {t : Term} (h : t.Legible) (hscalar : t.isArray = false) :
    IsWord (Literal.text t) ∨ ∃ s, t = string s ∧ '\\' ∉ s.toList := by
  obtain hkeyword | ⟨n, rfl⟩ | hstring := h.scalar_cases hscalar
  · exact .inl (isWord_of_keyword t hkeyword)
  · exact .inl (isWord_integer n)
  · exact .inr hstring

theorem unquote?_text_string {s : String} (h : '\\' ∉ s.toList) (rest : List Char) :
    ∃ quoted, (Literal.text (string s)).toList ++ rest = '\'' :: quoted ∧
      Literal.unquote? quoted = some (s.toList, rest) := by
  refine ⟨Literal.escaped s.toList ++ '\'' :: rest, ?_, Literal.unquote?_escaped h rest⟩
  rw [text_string, Literal.toList_quote, List.cons_append, List.append_assoc, List.singleton_append]

/-- **A scalar is told from every other by its literal.** -/
theorem Legible.tellsApart {t t' : Term} (h : t.Legible) (h' : t'.Legible)
    (hscalar : t.isArray = false) (hscalar' : t'.isArray = false) :
    TellsApart Eq Literal.text t t' := by
  intro rest rest' hrest hrest' heq
  obtain hword | ⟨s, rfl, hs⟩ := h.isWord_or_string hscalar
  · obtain hword' | ⟨s', rfl, hs'⟩ := h'.isWord_or_string hscalar'
    · obtain ⟨htext, hsame⟩ := Text.append_inj_of_word (fun c hc => (hword.2 c hc).1)
        (fun c hc => (hword'.2 c hc).1) hrest hrest' heq
      exact ⟨h.eq_of_text_eq h' hscalar hscalar' hword (String.toList_inj.1 htext), hsame⟩
    · obtain ⟨quoted, hquoted, -⟩ := unquote?_text_string hs' rest'
      exact absurd (heq.trans hquoted) (hword.append_ne_quote rest quoted)
  · obtain ⟨quoted, hquoted, hread⟩ := unquote?_text_string hs rest
    obtain hword' | ⟨s', rfl, hs'⟩ := h'.isWord_or_string hscalar'
    · exact absurd (heq.symm.trans hquoted) (hword'.append_ne_quote rest' quoted)
    · obtain ⟨quoted', hquoted', hread'⟩ := unquote?_text_string hs' rest'
      rw [hquoted, hquoted'] at heq
      obtain rfl := (List.cons.inj heq).2
      obtain ⟨hsame, hrest⟩ := Prod.mk.inj (Option.some.inj (hread.symm.trans hread'))
      exact ⟨congrArg string (String.toList_inj.1 hsame), hrest⟩

/-! ### Lists -/

theorem dataType_of_mem_elements {t e : Term} (h : e ∈ t.elements) : e.dataType = t.dataType := by
  cases t with
  | strings | integers | doubles | booleans | dates =>
    obtain ⟨_, -, rfl⟩ := List.mem_map.1 h
    rfl
  | null | string | integer | double | boolean | date =>
    obtain rfl := List.mem_singleton.1 h
    rfl

/-- A list that is not empty is determined by its elements. -/
theorem eq_of_elements_eq {t t' : Term} (hlist : t.isArray = true) (hlist' : t'.isArray = true)
    (hne : t.elements ≠ []) (h : t.elements = t'.elements) : t = t' := by
  obtain ⟨e, he⟩ := List.exists_mem_of_ne_nil _ hne
  have htype : t.dataType = t'.dataType :=
    (dataType_of_mem_elements he).symm.trans (dataType_of_mem_elements (h ▸ he))
  have hinjective {α : Type} {scalar : α → Term} (hscalar : Function.Injective scalar) {xs xs' : List α}
      (h : xs.map scalar = xs'.map scalar) : xs = xs' := List.map_injective_iff.2 hscalar h
  cases t <;> cases hlist <;> cases t' <;> cases hlist' <;> cases htype <;>
    exact congrArg _ (hinjective (fun _ _ hsame => by injection hsame) h)

theorem text_eq_intercalate_elements (t : Term) :
    Literal.text t = ", ".intercalate (t.elements.map Literal.text) := by
  cases t <;> simp [elements, Literal.text, Literal.scalars, Function.comp_def]

/-- **A list in parentheses is told from every other by its literal.** -/
theorem Legible.eq_of_listed_eq {t t' : Term} (h : t.Legible) (h' : t'.Legible)
    (hlist : t.isArray = true) (hlist' : t'.isArray = true) (hne : t.elements ≠ [])
    (hne' : t'.elements ≠ []) {rest rest' : List Char}
    (heq : (Literal.text t).toList ++ ')' :: rest = (Literal.text t').toList ++ ')' :: rest') :
    t = t' ∧ rest = rest' := by
  rw [text_eq_intercalate_elements t, text_eq_intercalate_elements t'] at heq
  obtain ⟨helements, -, hrest⟩ := forall₂_of_intercalate_eq (R := Eq) separates_comma separates_comma
    (fun hsame => ⟨rfl, List.append_cancel_left hsame⟩) hne hne' (fun e he e' he' => by
      obtain ⟨hlegible, hscalar⟩ := h.of_mem_elements he
      obtain ⟨hlegible', hscalar'⟩ := h'.of_mem_elements he'
      exact hlegible.tellsApart hlegible' hscalar hscalar') heq
  rw [List.forall₂_eq_eq_eq] at helements
  exact ⟨eq_of_elements_eq hlist hlist' hne helements, hrest⟩

end Term
end DocumentStore
