import DocumentStore.Proofs.Term.Arrays

/-! What array literals are read as.

An array that begins with a scalar other than null is read as the list of its elements in their order, each
one read as a scalar of the type of the first, or else it is refused. It is refused exactly if some element
cannot be read so: because it is nested, null, or of another type (`ofValue_arr`). Of the two passes that come
to the same as reading the array, the first settles what an element becomes and whether it has to be refused
(`coerced_eq_ok_iff`, `coerced_eq_error_iff`), and the second keeps every element as it is
(`elements_of_collected`). -/
namespace DocumentStore
open Json (Value)

/-- An array of the first type takes elements of the second: of its own, and besides integers among doubles
and dates among strings. -/
def DataType.Takes : DataType → DataType → Prop
  | .double, .integer => True
  | .string, .date => True
  | type, other => other = type

namespace Term

/-- The scalar of an array's type that an element is read as. -/
inductive ReadsAs : DataType → Value → Term → Prop where
  /-- An element of the type is the scalar that it is by itself. -/
  | own {type : DataType} {v : Value} {t : Term} (h : ofScalar v = .ok t) (htype : t.dataType = type) :
    ReadsAs type v t
  /-- Among doubles, an integer is widened. -/
  | widened {v : Value} {n : Int} (h : ofScalar v = .ok (.integer n)) :
    ReadsAs .double v (.double (Float.ofInt n))
  /-- Among strings, a date is the text that it is written in. -/
  | keptText {s : String} {i : Calendar.Instant} (h : ofScalar (.str s) = .ok (.date i)) :
    ReadsAs .string (.str s) (.string s)

/-- An element that an array of a type does not take, and what it is refused for. -/
inductive Misfit (type : DataType) : Value → Violation → Prop where
  | array (vs : List Value) : Misfit type (.arr vs) (.nestedLiteral (.arr vs))
  | object (members : List (String × Value)) : Misfit type (.obj members) (.nestedLiteral (.obj members))
  | null : Misfit type .null (.mixedArray type .unknown)
  | mixed {v : Value} {t : Term} (h : ofScalar v = .ok t) (htype : ¬type.Takes t.dataType) :
    Misfit type v (.mixedArray type t.dataType)

variable {v first : Value} {rest vs : List Value} {t t₀ e : Term} {terms : List Term} {type : DataType}

/-! ### The first pass -/

theorem coerced_eq_ok_iff : coerced type v = .ok e ↔ ReadsAs type v e := by
  constructor
  · intro h
    obtain ⟨t, hscalar, h⟩ := Result.bind_eq_ok_iff.1 h
    unfold coerce at h
    split at h
    · cases h
      exact .widened hscalar
    · cases isOfScalar_of_ofScalar hscalar
      cases h
      exact .keptText hscalar
    · split at h
      · next htype =>
        cases h
        exact .own hscalar htype
      · cases h
  · intro h
    cases h with
    | own hscalar htype =>
      unfold coerced
      rw [hscalar]
      subst htype
      cases isOfScalar_of_ofScalar hscalar <;> rfl
    | widened hscalar =>
      unfold coerced
      rw [hscalar]
      rfl
    | keptText hscalar =>
      unfold coerced
      rw [hscalar]
      rfl

theorem coerced_eq_error_iff {e : Error} (htype : type ≠ .unknown) :
    coerced type v = .error e ↔ ∃ cause, Misfit type v cause ∧ e = .validation cause := by
  constructor
  · intro h
    obtain h | ⟨t, hscalar, h⟩ := Result.bind_eq_error_iff.1 h
    · cases v with
      | arr vs =>
        cases h
        exact ⟨_, .array vs, rfl⟩
      | obj members =>
        cases h
        exact ⟨_, .object members, rfl⟩
      | _ => cases h
    · cases isOfScalar_of_ofScalar hscalar <;> cases type <;> cases h <;>
        exact ⟨_, .mixed hscalar nofun, rfl⟩
  · intro h
    obtain ⟨cause, hmisfit, rfl⟩ := h
    cases hmisfit with
    | array | object => rfl
    | null =>
      cases type with
      | unknown => exact absurd rfl htype
      | _ => rfl
    | mixed hscalar hother =>
      unfold coerced
      rw [hscalar]
      cases isOfScalar_of_ofScalar hscalar <;> cases type <;>
        first | rfl | exact absurd trivial hother | exact absurd rfl hother

/-! ### The second pass -/

/-- A list made of values that terms are read as has these terms as its elements, if reading a term only
unwraps it. -/
theorem elements_of_map_mapM {read : Term → Result α} {make : List α → Term} {element : α → Term}
    (hmake : ∀ xs,
      (make xs).isArray = true ∧ (make xs).dataType = type ∧ (make xs).elements = xs.map element)
    (hread : ∀ e a, e.dataType = type → e.isArray = false → read e = .ok a → e = element a)
    (hterms : ∀ e ∈ terms, e.dataType = type ∧ e.isArray = false) (h : make <$> terms.mapM read = .ok t) :
    t.isArray = true ∧ t.dataType = type ∧ t.elements = terms := by
  obtain ⟨xs, hxs, rfl⟩ := Result.map_eq_ok_iff.1 h
  obtain ⟨harray, htype, helements⟩ := hmake xs
  have hsame : List.Forall₂ (fun e a => e = element a) terms xs :=
    ((List.forall₂_and_left _ _).2 ⟨hterms, Result.mapM_eq_ok_iff.1 hxs⟩).imp
      fun e a he => hread e a he.1.1 he.1.2 he.2
  rw [← List.forall₂_map_right_iff, List.forall₂_eq_eq_eq] at hsame
  exact ⟨harray, htype, helements.trans hsame.symm⟩

/-- The list that scalars of a type make up has them as its elements. -/
theorem elements_of_collected (htype : type ≠ .unknown)
    (hterms : ∀ e ∈ terms, e.dataType = type ∧ e.isArray = false) (h : collected type terms = .ok t) :
    t.isArray = true ∧ t.dataType = type ∧ t.elements = terms := by
  cases type with
  | string | integer | double | boolean | date =>
    refine elements_of_map_mapM (fun xs => ⟨rfl, rfl, rfl⟩) (fun e a htype harray hread => ?_) hterms h
    cases e <;> cases htype <;> cases harray
    cases hread
    rfl
  | unknown => exact absurd rfl htype

/-! ### Arrays -/

/-- An array that begins with a scalar other than null is read in the two passes of the type of that. -/
theorem ofValue_arr_eq (hfirst : ofScalar first = .ok t₀) (hnull : first ≠ .null) (rest : List Value) :
    t₀.dataType ≠ .unknown ∧ ofValue (.arr (first :: rest)) =
      (first :: rest).mapM (coerced t₀.dataType) >>= collected t₀.dataType := by
  have htype : t₀.dataType ≠ .unknown := by
    cases isOfScalar_of_ofScalar hfirst with
    | null => exact absurd rfl hnull
    | _ => exact nofun
  refine ⟨htype, ?_⟩
  rw [ofValue, ofArray_eq, ofArrayTwice, hfirst]
  exact if_neg htype

/-- **An array that begins with a scalar other than null is read as the list of its elements, each read as a
scalar of the type of the first, or it is refused; and it is refused exactly if some element is nested, null
or of a type that the list does not take.** -/
theorem ofValue_arr (hfirst : ofScalar first = .ok t₀) (hnull : first ≠ .null) :
    ((∃ t, ofValue (.arr (first :: rest)) = .ok t ∧ t.isArray = true ∧ t.dataType = t₀.dataType ∧
        List.Forall₂ (ReadsAs t₀.dataType) (first :: rest) t.elements) ∨
      ∃ v ∈ first :: rest, ∃ cause, Misfit t₀.dataType v cause ∧
        ofValue (.arr (first :: rest)) = .error (.validation cause)) ∧
    ((∃ e, ofValue (.arr (first :: rest)) = .error e) ↔
      ∃ v ∈ first :: rest, ∃ cause, Misfit t₀.dataType v cause) := by
  obtain ⟨htype, hread⟩ := ofValue_arr_eq hfirst hnull rest
  rw [hread]
  cases hterms : (first :: rest).mapM (coerced t₀.dataType) with
  | ok terms =>
    have hcoerced := Result.mapM_eq_ok_iff.1 hterms
    obtain ⟨t, ht⟩ := exists_collected hterms
    have hshape : ∀ e ∈ terms, e.dataType = t₀.dataType ∧ e.isArray = false := fun e he => by
      obtain ⟨v, -, hv⟩ := exists_of_mem_forall₂ hcoerced.flip he
      exact shape_of_coerced hv
    obtain ⟨harray, hsame, helements⟩ := elements_of_collected htype hshape ht
    refine ⟨.inl ⟨t, ht, harray, hsame, ?_⟩, ?_⟩
    · rw [helements]
      exact hcoerced.imp fun v e hv => coerced_eq_ok_iff.1 hv
    · refine iff_of_false ?_ ?_
      · rintro ⟨e, he⟩
        exact Result.ok_ne_error (ht.symm.trans he)
      · rintro ⟨v, hv, cause, hmisfit⟩
        obtain ⟨e, -, he⟩ := exists_of_mem_forall₂ hcoerced hv
        exact Result.ok_ne_error (he.symm.trans ((coerced_eq_error_iff htype).2 ⟨cause, hmisfit, rfl⟩))
  | error e =>
    obtain ⟨v, hv, he⟩ := Result.exists_of_mapM_eq_error hterms
    obtain ⟨cause, hmisfit, rfl⟩ := (coerced_eq_error_iff htype).1 he
    exact ⟨.inr ⟨v, hv, cause, hmisfit, rfl⟩, iff_of_true ⟨_, rfl⟩ ⟨v, hv, cause, hmisfit⟩⟩

/-- Text that looks like a date stays text behind other text, and is refused behind an integer. -/
theorem ofValue_arr_dates :
    (∃ t, ofValue (.arr [.str "x", .str "2024-01-01T00:00:00Z"]) = .ok t ∧
      List.Forall₂ (ReadsAs .string) [.str "x", .str "2024-01-01T00:00:00Z"] t.elements) ∧
    ∃ e, ofValue (.arr [.int 1, .str "2024-01-01T00:00:00Z"]) = .error e := by
  constructor
  · have hread : ofValue (.arr [.str "x", .str "2024-01-01T00:00:00Z"]) =
        .ok (strings ["x", "2024-01-01T00:00:00Z"]) := rfl
    have hfirst : ofScalar (.str "x") = .ok (string "x") := rfl
    obtain ⟨t, ht, -, -, helements⟩ | ⟨v, -, cause, -, herror⟩ := (ofValue_arr hfirst nofun).1
    · exact ⟨t, ht, helements⟩
    · exact absurd (hread.symm.trans herror) Result.ok_ne_error
  · have hfirst : ofScalar (.int 1) = .ok (integer 1) := rfl
    refine (ofValue_arr hfirst nofun).2.2 ?_
    exact ⟨_, List.mem_cons_of_mem _ List.mem_cons_self, _, .mixed rfl nofun⟩

end Term
end DocumentStore
