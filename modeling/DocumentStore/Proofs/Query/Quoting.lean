import DocumentStore.Proofs.Calendar.Padded
import DocumentStore.Query.Literal

/-! Quoted literals read back.

The reader of a literal (`unquote?`) takes a backslash as the escape of whatever stands behind it, but
only quotes are written with one. So a string without a backslash reads back, and the reader stops
where the literal does (`unquote?_escaped`); a string with one never reads back, wherever the reader
stops (`not_mem_of_unquote?`). Dates are written without backslashes. -/
namespace DocumentStore.Literal

/-- What stands between the quotes of a quoted string. -/
def escaped (s : List Char) : List Char := s.flatMap escape

theorem toList_quote (s : String) : (quote s).toList = '\'' :: (escaped s.toList ++ ['\'']) := by
  simp [quote, escaped]

theorem escaped_quote (s : List Char) : escaped ('\'' :: s) = '\\' :: '\'' :: escaped s := by
  simp [escaped, escape]

theorem escaped_cons {c : Char} (h : c ≠ '\'') (s : List Char) : escaped (c :: s) = c :: escaped s := by
  simp [escaped, escape, h]

theorem escaped_of_not_mem {s : List Char} (h : '\'' ∉ s) : escaped s = s := by
  induction s with
  | nil => rfl
  | cons c s ih =>
    obtain ⟨hc, hs⟩ := not_or.1 fun hm => h (List.mem_cons.2 hm)
    rw [escaped_cons (Ne.symm hc), ih hs]

/-! ### One step of the reader -/

theorem unquote?_close (rest : List Char) : unquote? ('\'' :: rest) = some ([], rest) := by
  simp [unquote?]

theorem unquote?_backslash (c : Char) (rest : List Char) :
    unquote? ('\\' :: c :: rest) = (unquote? rest).map fun p => (c :: p.1, p.2) := by
  simp [unquote?]

theorem unquote?_cons {c : Char} (hq : c ≠ '\'') (hb : c ≠ '\\') (rest : List Char) :
    unquote? (c :: rest) = (unquote? rest).map fun p => (c :: p.1, p.2) := by
  rw [unquote?.eq_def]
  split
  · next heq => exact absurd (List.cons.inj heq).1 hb
  · next heq =>
    obtain ⟨rfl, rfl⟩ := List.cons.inj heq
    simp [hq, hb]
  · next heq => cases heq

/-- What is read behind one character. -/
theorem exists_of_map_cons {read : Option (List Char × List Char)} {c : Char} {s rest : List Char}
    (h : (read.map fun p => (c :: p.1, p.2)) = some (s, rest)) :
    ∃ t, s = c :: t ∧ read = some (t, rest) := by
  obtain ⟨⟨t, rest'⟩, rfl, heq⟩ := Option.map_eq_some_iff.1 h
  cases heq
  exact ⟨t, rfl, rfl⟩

/-- What is read ends behind a closing quote, so less than the text is left. -/
theorem length_lt_of_unquote? {cs s rest : List Char} (h : unquote? cs = some (s, rest)) :
    rest.length < cs.length := by
  fun_induction unquote? cs generalizing s rest with
  | case1 c cs ih =>
    obtain ⟨t, -, hread⟩ := exists_of_map_cons h
    exact Nat.lt_succ_of_lt (Nat.lt_succ_of_lt (ih hread))
  | case2 =>
    cases h
    exact Nat.lt_succ_self _
  | case3 => cases h
  | case4 c cs _ _ _ ih =>
    obtain ⟨t, -, hread⟩ := exists_of_map_cons h
    exact Nat.lt_succ_of_lt (ih hread)
  | case5 => cases h

/-! ### Strings without a backslash read back -/

/-- A character other than a backslash is read as itself. -/
theorem unquote?_escaped_cons {c : Char} (hb : c ≠ '\\') (t rest : List Char) :
    unquote? (escaped (c :: t) ++ '\'' :: rest) =
      (unquote? (escaped t ++ '\'' :: rest)).map fun p => (c :: p.1, p.2) := by
  by_cases hq : c = '\''
  · subst hq
    rw [escaped_quote, List.cons_append, List.cons_append, unquote?_backslash]
  · rw [escaped_cons hq, List.cons_append, unquote?_cons hq hb]

theorem unquote?_escaped {s : List Char} (h : '\\' ∉ s) (rest : List Char) :
    unquote? (escaped s ++ '\'' :: rest) = some (s, rest) := by
  induction s with
  | nil => exact unquote?_close rest
  | cons c s ih =>
    obtain ⟨hb, hs⟩ := not_or.1 fun hm => h (List.mem_cons.2 hm)
    rw [unquote?_escaped_cons (Ne.symm hb), ih hs]
    rfl

/-! ### Strings with one never do

Behind the first backslash the reader is ahead: it has used up a character that the string still has
to give. The string could only keep up by giving backslashes, and each of them puts it further behind. -/

/-- A backslash is read as one before a quote, where the literal then ends, or before another. -/
theorem unquote?_escaped_backslash {t s rest rest' : List Char}
    (h : unquote? (escaped ('\\' :: t) ++ '\'' :: rest) = some ('\\' :: s, rest')) :
    (s = [] ∧ ∃ u, t = '\'' :: u) ∨
      ∃ u, t = '\\' :: u ∧ unquote? (escaped u ++ '\'' :: rest) = some (s, rest') := by
  rw [escaped_cons (by decide), List.cons_append] at h
  cases t with
  | nil =>
    rw [escaped, List.flatMap_nil, List.nil_append, unquote?_backslash] at h
    obtain ⟨_, heq, -⟩ := exists_of_map_cons h
    exact absurd (List.cons.inj heq).1 (by decide)
  | cons d u =>
    by_cases hd : d = '\''
    · subst hd
      rw [escaped_quote, List.cons_append, List.cons_append, unquote?_backslash, unquote?_close] at h
      cases h
      exact .inl ⟨rfl, u, rfl⟩
    · rw [escaped_cons hd, List.cons_append, unquote?_backslash] at h
      obtain ⟨_, heq, hread⟩ := exists_of_map_cons h
      cases heq
      exact .inr ⟨u, rfl, hread⟩

theorem unquote?_ne_behind (rest rest' : List Char) : ∀ (t : List Char) (k : Nat),
    unquote? (escaped t ++ '\'' :: rest) ≠ some (List.replicate (k + 1) '\\' ++ t, rest')
  | [], k, h => by
    rw [escaped, List.flatMap_nil, List.nil_append, unquote?_close] at h
    cases h
  | c :: t, k, h => by
    by_cases hb : c = '\\'
    · subst hb
      obtain ⟨hnil, -⟩ | ⟨u, rfl, hread⟩ := unquote?_escaped_backslash h
      · simp at hnil
      · -- Two characters of the string are used up for one that was read.
        have hbehind : List.replicate (k + 1 + 1) '\\' ++ u =
            List.replicate k '\\' ++ '\\' :: '\\' :: u := by
          simp only [List.replicate_succ', List.append_assoc, List.cons_append, List.nil_append]
        exact unquote?_ne_behind rest rest' u (k + 1) (by rw [hbehind]; exact hread)
    · rw [unquote?_escaped_cons hb] at h
      obtain ⟨_, heq, -⟩ := exists_of_map_cons h
      exact hb (List.cons.inj heq).1.symm
termination_by t => t.length

/-- A string that reads back has no backslash. -/
theorem not_mem_of_unquote? {s rest rest' : List Char}
    (h : unquote? (escaped s ++ '\'' :: rest) = some (s, rest')) : '\\' ∉ s := by
  induction s with
  | nil => exact List.not_mem_nil
  | cons c s ih =>
    by_cases hb : c = '\\'
    · subst hb
      exfalso
      obtain ⟨rfl, u, heq⟩ | ⟨u, rfl, hread⟩ := unquote?_escaped_backslash h
      · cases heq
      · exact unquote?_ne_behind rest rest' u 0 hread
    · rw [unquote?_escaped_cons hb] at h
      obtain ⟨_, heq, hread⟩ := exists_of_map_cons h
      cases heq
      intro hm
      rcases List.mem_cons.1 hm with rfl | hm
      · exact hb rfl
      · exact ih hread hm

/-- A quoted string reads back, and the reader stops where its literal does, exactly if it has no
backslash. -/
theorem unquote?_escaped_iff (s rest : List Char) :
    unquote? (escaped s ++ '\'' :: rest) = some (s, rest) ↔ '\\' ∉ s :=
  ⟨not_mem_of_unquote?, fun h => unquote?_escaped h rest⟩

/-! ### Dates -/

theorem backslash_not_mem_preciseText (t : Calendar.Instant) : '\\' ∉ t.preciseText.toList := by
  have hnumber (width n : Nat) : '\\' ∉ Calendar.padded width n := Calendar.not_mem_padded (by decide)
  have hyear : '\\' ∉ Calendar.yearText t.date.year := by
    unfold Calendar.yearText
    split
    · exact hnumber _ _
    · split <;> simp [hnumber]
  simp [Calendar.Instant.preciseText, Calendar.Instant.clockText, Calendar.Date.text, hyear, hnumber]

end DocumentStore.Literal
