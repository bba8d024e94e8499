import DocumentStore.Proofs.Result
import DocumentStore.Term.Reading

/-! Array literals in two passes.

An array may be read in two passes: the first brings its elements to the type of the first one, the second
reads the list of terms as values of that type. The second pass never fails on what comes out of the first
(`Term.exists_collected`), so the two passes come to the same as the one pass that arrays are read in
(`Term.ofArray_eq`), and a literal that is not read is refused for what it asks
(`Term.blamesDocument_of_ofValue`). -/
namespace DocumentStore
open Json (Value)
open Calendar (Instant)

/-- The failure is one of the document: of its form, or of what it asks for. -/
def Error.BlamesDocument : Error → Prop
  | parse _ | validation _ => True
  | _ => False

namespace Term

variable {v : Value} {rest : List Value} {t t₀ : Term} {type : DataType}

/-! ### Scalars -/

/-- The kinds of term that each kind of scalar is read as. -/
inductive IsOfScalar : Value → Term → Prop
  | null : IsOfScalar .null .null
  | boolean (b : Bool) : IsOfScalar (.bool b) (.boolean b)
  | integer (n : Json.Number) (i : Int) : IsOfScalar (.num n) (.integer i)
  | double (n : Json.Number) (x : Float) : IsOfScalar (.num n) (.double x)
  | date (s : String) (i : Instant) : IsOfScalar (.str s) (.date i)
  | string (s : String) : IsOfScalar (.str s) (.string s)

theorem isOfScalar_of_ofScalar (h : ofScalar v = .ok t) : IsOfScalar v t := by
  cases v with
  | null =>
    cases h
    exact .null
  | bool b =>
    cases h
    exact .boolean b
  | num n =>
    cases h
    unfold ofNumber
    split
    · exact .integer n _
    · exact .double n _
  | str s =>
    cases h
    unfold ofText
    split
    · exact .date s _
    · exact .string s
  | arr => cases h
  | obj => cases h

/-- A scalar is read as no list, and as null only where it is null. -/
theorem isArray_of_ofScalar (h : ofScalar v = .ok t) : t.isArray = false ∧ (t = .null → v = .null) := by
  cases isOfScalar_of_ofScalar h with
  | null => exact ⟨rfl, fun _ => rfl⟩
  | _ => exact ⟨rfl, Term.noConfusion⟩

/-! ### Elements -/

/-- Elements that are picked by one type make up a list of that type, which begins with what is picked of
the first. -/
theorem elements_of_mapM_ofElement {type : DataType} (pick : Value → Term → Option α)
    (make : List α → Term) (element : α → Term)
    (hmake : ∀ xs, (make xs).isArray = true ∧ (make xs).elements = xs.map element)
    (htype : ∀ x, (element x).dataType = type)
    (h : make <$> (v :: rest).mapM (ofElement type pick) = .ok t) (hscalar : ofScalar v = .ok t₀)
    (hpick : (pick v t₀).map element = some t₀) :
    t.isArray = true ∧ ∃ more, t.elements = t₀ :: more ∧ ∀ e ∈ more, e.dataType = type := by
  obtain ⟨xs, hxs, rfl⟩ := Result.map_eq_ok_iff.1 h
  cases Result.mapM_eq_ok_iff.1 hxs with
  | @cons _ x _ more hfirst _ =>
    obtain ⟨t₁, hsame, hfirst⟩ := Result.bind_eq_ok_iff.1 hfirst
    obtain rfl : t₀ = t₁ := Except.ok.inj (hscalar.symm.trans hsame)
    obtain ⟨x', hx', hx⟩ := Option.map_eq_some_iff.1 hpick
    rw [hx'] at hfirst
    cases hfirst
    refine ⟨(hmake _).1, more.map element, ?_, ?_⟩
    · rw [(hmake _).2, List.map_cons, hx]
    · intro e he
      obtain ⟨y, -, rfl⟩ := List.mem_map.1 he
      exact htype y

/-- An array that begins with a scalar other than null is read as a list that begins with the same
scalar, and whose elements are of its type. -/
theorem elements_ofArray (h : ofArray (v :: rest) = .ok t) (hscalar : ofScalar v = .ok t₀)
    (hnull : v ≠ .null) :
    t.isArray = true ∧ ∃ more, t.elements = t₀ :: more ∧ ∀ e ∈ more, e.dataType = t₀.dataType := by
  obtain ⟨t₁, hsame, h⟩ := Result.bind_eq_ok_iff.1 h
  obtain rfl : t₀ = t₁ := Except.ok.inj (hscalar.symm.trans hsame)
  obtain ⟨harray, hnone⟩ := isArray_of_ofScalar hscalar
  cases t₀ with
  | null => exact absurd (hnone rfl) hnull
  | string =>
    exact elements_of_mapM_ofElement pickString strings string (fun _ => ⟨rfl, rfl⟩) (fun _ => rfl) h
      hscalar rfl
  | integer =>
    exact elements_of_mapM_ofElement pickInteger integers integer (fun _ => ⟨rfl, rfl⟩) (fun _ => rfl)
      h hscalar rfl
  | double =>
    exact elements_of_mapM_ofElement pickDouble doubles double (fun _ => ⟨rfl, rfl⟩) (fun _ => rfl) h
      hscalar rfl
  | boolean =>
    exact elements_of_mapM_ofElement pickBoolean booleans boolean (fun _ => ⟨rfl, rfl⟩) (fun _ => rfl)
      h hscalar rfl
  | date =>
    exact elements_of_mapM_ofElement pickDate dates date (fun _ => ⟨rfl, rfl⟩) (fun _ => rfl) h hscalar
      rfl
  | strings | integers | doubles | booleans | dates => cases harray

/-- What a document is read as has an element: an array without any is read as null. -/
theorem elements_ne_nil_of_ofValue (h : ofValue v = .ok t) : t.elements ≠ [] := by
  cases v with
  | obj => cases h
  | arr vs =>
    cases vs with
    | nil =>
      cases h
      exact List.cons_ne_nil _ _
    | cons first rest =>
      obtain ⟨t₀, hscalar, hread⟩ := Result.bind_eq_ok_iff.1 h
      by_cases hnull : first = .null
      · subst hnull
        cases hscalar
        cases hread
        exact List.cons_ne_nil _ _
      · obtain ⟨-, more, helements, -⟩ := elements_ofArray h hscalar hnull
        rw [helements]
        exact List.cons_ne_nil _ _
  | _ =>
    simp only [ofValue] at h
    cases isOfScalar_of_ofScalar h <;> exact List.cons_ne_nil _ _

/-! ### The two passes -/

/-- A scalar brought to the type of an array: integers become doubles, and dates go back to the text they
were read from. -/
def coerce (type : DataType) (v : Value) (t : Term) : Result Term :=
  match type, t with
  | .double, .integer n => .ok (.double (Float.ofInt n))
  | .string, .date _ => .ok (.string (v.text?.getD ""))
  | _, _ => if t.dataType = type then .ok t else .error (.validation (.mixedArray type t.dataType))

/-- The first pass over an element. -/
def coerced (type : DataType) (v : Value) : Result Term := ofScalar v >>= coerce type v

/-- The second pass: the list of a type that terms make up. -/
def collected (type : DataType) (terms : List Term) : Result Term :=
  match type with
  | .string => strings <$> terms.mapM asString
  | .integer => integers <$> terms.mapM asInteger
  | .double => doubles <$> terms.mapM asDouble
  | .boolean => booleans <$> terms.mapM asBoolean
  | .date => dates <$> terms.mapM asDate
  | .unknown => .ok null

/-- An array read in two passes. -/
def ofArrayTwice : List Value → Result Term
  | [] => .ok null
  | first :: rest => do
    let type := (← ofScalar first).dataType
    if type = .unknown then return null
    collected type (← (first :: rest).mapM (coerced type))

/-- What comes out of the first pass is a scalar of the type. -/
theorem shape_of_coerced (h : coerced type v = .ok t) : t.dataType = type ∧ t.isArray = false := by
  obtain ⟨t₀, hscalar, h⟩ := Result.bind_eq_ok_iff.1 h
  cases isOfScalar_of_ofScalar hscalar <;> cases type <;> cases h <;> exact ⟨rfl, rfl⟩

/-! ### The second pass never fails -/

/-- Every scalar of the type is read as a value of it. -/
def ReadsScalars (type : DataType) (read : Term → Result α) : Prop :=
  ∀ t : Term, t.dataType = type → t.isArray = false → ∃ a, read t = .ok a

theorem readsScalars_asString : ReadsScalars .string asString := fun t htype harray => by
  cases t with
  | string s => exact ⟨s, rfl⟩
  | strings => cases harray
  | _ => cases htype

theorem readsScalars_asInteger : ReadsScalars .integer asInteger := fun t htype harray => by
  cases t with
  | integer n => exact ⟨n, rfl⟩
  | integers => cases harray
  | _ => cases htype

theorem readsScalars_asDouble : ReadsScalars .double asDouble := fun t htype harray => by
  cases t with
  | double x => exact ⟨x, rfl⟩
  | doubles => cases harray
  | _ => cases htype

theorem readsScalars_asBoolean : ReadsScalars .boolean asBoolean := fun t htype harray => by
  cases t with
  | boolean b => exact ⟨b, rfl⟩
  | booleans => cases harray
  | _ => cases htype

theorem readsScalars_asDate : ReadsScalars .date asDate := fun t htype harray => by
  cases t with
  | date i => exact ⟨i, rfl⟩
  | dates => cases harray
  | _ => cases htype

/-- The second pass over terms of a type comes out, whatever list it makes. -/
theorem exists_map_mapM {read : Term → Result α} (hread : ReadsScalars type read) (make : List α → Term)
    {vs : List Value} {terms : List Term} (h : vs.mapM (coerced type) = .ok terms) :
    ∃ t, make <$> terms.mapM read = .ok t := by
  have hterms : ∀ t ∈ terms, ∃ a, read t = .ok a := fun t ht => by
    obtain ⟨v, -, hv⟩ := exists_of_mem_forall₂ (Result.mapM_eq_ok_iff.1 h).flip ht
    obtain ⟨htype, harray⟩ := shape_of_coerced hv
    exact hread t htype harray
  obtain ⟨as, has⟩ := Result.exists_mapM_eq_ok hterms
  exact ⟨make as, by rw [has]; rfl⟩

/-- **The conversions of the second pass never fail.** -/
theorem exists_collected {vs : List Value} {terms : List Term} (h : vs.mapM (coerced type) = .ok terms) :
    ∃ t, collected type terms = .ok t := by
  cases type with
  | string => exact exists_map_mapM readsScalars_asString strings h
  | integer => exact exists_map_mapM readsScalars_asInteger integers h
  | double => exact exists_map_mapM readsScalars_asDouble doubles h
  | boolean => exact exists_map_mapM readsScalars_asBoolean booleans h
  | date => exact exists_map_mapM readsScalars_asDate dates h
  | unknown => exact ⟨.null, rfl⟩

/-! ### One pass and two -/

theorem ofElement_eq (pick : Value → Term → Option α) (v : Value) : ofElement type pick v =
    ofScalar v >>= fun t => (pick v t).elim (.error (.validation (.mixedArray type t.dataType))) .ok := by
  refine bind_congr fun t => ?_
  cases pick v t <;> rfl

/-- One pass over elements of a type does what the two passes do. -/
theorem map_mapM_ofElement {pick : Value → Term → Option α} {read : Term → Result α}
    (hpick : ∀ v t, IsOfScalar v t →
      (pick v t).elim (.error (.validation (.mixedArray type t.dataType))) .ok = coerce type v t >>= read)
    (hread : ReadsScalars type read) (make : List α → Term) (vs : List Value) :
    make <$> vs.mapM (ofElement type pick) =
      vs.mapM (coerced type) >>= fun terms => make <$> terms.mapM read := by
  have hpasses : vs.mapM (ofElement type pick) = vs.mapM (coerced type) >>= (·.mapM read) := by
    refine Result.mapM_eq_bind_mapM (fun v => ?_) (fun v t h => ?_) vs
    · rw [ofElement_eq]
      unfold coerced
      cases hscalar : ofScalar v with
      | error e => rfl
      | ok t => exact hpick v t (isOfScalar_of_ofScalar hscalar)
    · obtain ⟨htype, harray⟩ := shape_of_coerced h
      exact hread t htype harray
  rw [hpasses, map_bind]

/-- **An array is read as in two passes.** -/
theorem ofArray_eq (vs : List Value) : ofArray vs = ofArrayTwice vs := by
  cases vs with
  | nil => rfl
  | cons first rest =>
    cases hfirst : ofScalar first with
    | error e =>
      simp only [ofArray, ofArrayTwice, hfirst]
      rfl
    | ok t =>
      simp only [ofArray, ofArrayTwice, hfirst]
      cases isOfScalar_of_ofScalar hfirst with
      | null => rfl
      | string => exact map_mapM_ofElement (by rintro _ _ ⟨⟩ <;> rfl) readsScalars_asString strings _
      | integer => exact map_mapM_ofElement (by rintro _ _ ⟨⟩ <;> rfl) readsScalars_asInteger integers _
      | double => exact map_mapM_ofElement (by rintro _ _ ⟨⟩ <;> rfl) readsScalars_asDouble doubles _
      | boolean => exact map_mapM_ofElement (by rintro _ _ ⟨⟩ <;> rfl) readsScalars_asBoolean booleans _
      | date => exact map_mapM_ofElement (by rintro _ _ ⟨⟩ <;> rfl) readsScalars_asDate dates _

/-! ### What is refused -/

theorem blamesDocument_of_ofScalar {e : Error} (h : ofScalar v = .error e) : e.BlamesDocument := by
  cases v with
  | arr | obj =>
    cases h
    trivial
  | _ => cases h

theorem blamesDocument_of_coerced {e : Error} (h : coerced type v = .error e) : e.BlamesDocument := by
  obtain h | ⟨t, hscalar, h⟩ := Result.bind_eq_error_iff.1 h
  · exact blamesDocument_of_ofScalar h
  · cases isOfScalar_of_ofScalar hscalar <;> cases type <;> cases h <;> trivial

/-- A literal that is not read is refused for what it asks; no conversion fails. -/
theorem blamesDocument_of_ofValue {e : Error} (h : ofValue v = .error e) : e.BlamesDocument := by
  cases v with
  | obj =>
    cases h
    trivial
  | arr vs =>
    rw [ofValue, ofArray_eq] at h
    cases vs with
    | nil => cases h
    | cons first rest =>
      obtain h | ⟨t, -, h⟩ := Result.bind_eq_error_iff.1 h
      · exact blamesDocument_of_ofScalar h
      · dsimp only at h
        split at h
        · cases h
        · obtain h | ⟨terms, hterms, h⟩ := Result.bind_eq_error_iff.1 h
          · obtain ⟨v, -, hv⟩ := Result.exists_of_mapM_eq_error h
            exact blamesDocument_of_coerced hv
          · obtain ⟨t', ht'⟩ := exists_collected hterms
            rw [ht'] at h
            cases h
  | _ => cases h

end Term
end DocumentStore
