import DocumentStore.Filter.Truth
import DocumentStore.Proofs.Filter.Doubles
import DocumentStore.Proofs.Term.Arrays

/-! Values compared with themselves.

A value that is read as a term equals it, and is a member of every list that begins with it, but for one
kind of text: dates without an offset are read as dates, while comparisons take text for a date in RFC
3339 alone (`Json.Value.isBareDate`). An item that holds such a text is not found by it
(`Leaf.admits_own_value`). -/
namespace DocumentStore
open Json (Value)
open Calendar (Instant)

/-- No array and no object. -/
def Json.Value.IsScalar : Value → Prop
  | .arr _ | .obj _ => False
  | _ => True

/-- Text that is a date without an offset. -/
def Json.Value.isBareDate : Value → Bool
  | .str s => (Instant.zoned? s).isNone && (Instant.read? s).isSome
  | _ => false

variable {v : Value} {rest : List Value} {t t₀ : Term} {item : Item}

/-! ### Scalars -/

theorem Term.ofValue_of_isScalar (h : v.IsScalar) : ofValue v = ofScalar v := by
  cases v with
  | arr | obj => cases h
  | _ => rfl

/-- Every scalar is read as a term. -/
theorem Term.exists_ofValue (h : v.IsScalar) : ∃ t, ofValue v = .ok t := by
  cases v with
  | arr | obj => cases h
  | _ => exact ⟨_, rfl⟩

theorem Double.beq_self {x : Float} (hx : x.isNaN = false) : (x == x) = true := by
  rw [Double.beq_iff, Double.compare_eq hx hx, Std.ReflOrd.compare_self]

theorem Json.Number.ofInt_of_signed? {n : Json.Number} {i : Int} (h : n.signed? = some i) :
    Float.ofInt i = n.toFloat := by
  cases n with
  | int k =>
    rw [signed?] at h
    split at h
    · rw [Option.some.inj h]
      rfl
    · cases h
  | double => cases h

/-- A number, read as an integer or as a double, is compared as the double that it is. -/
theorem Comparable.ofTerm_ofNumber (n : Json.Number) : ofTerm (.ofNumber n) = number n.toFloat := by
  unfold Term.ofNumber
  cases h : n.signed? with
  | none => rfl
  | some i => exact congrArg number (Json.Number.ofInt_of_signed? h)

theorem Comparable.same_ofText (s : String) :
    (text s).same (ofTerm (.ofText s)) = !(Value.str s).isBareDate := by
  rw [Term.ofText, Value.isBareDate]
  cases hread : Instant.read? s with
  | none => simp [ofTerm, same]
  | some t =>
    cases hzoned : Instant.zoned? s with
    | none => simp [ofTerm, same, hzoned]
    | some t' =>
      have hsame : t' = t := by simpa [Instant.read?, hzoned] using hread
      simp [ofTerm, same, hzoned, hsame]

/-- A scalar other than null equals the term that it is read as, unless it is a date without offset. -/
theorem Comparable.same_ofScalar (h : Term.ofScalar v = .ok t) (hnull : v ≠ .null) :
    (ofValue v).same (ofTerm t) = !v.isBareDate := by
  cases v with
  | null => exact absurd rfl hnull
  | bool b =>
    cases h
    simp [ofValue, ofTerm, same, Value.isBareDate]
  | num n =>
    cases h
    rw [ofTerm_ofNumber]
    exact Double.beq_self n.isNaN_toFloat
  | str s =>
    cases h
    exact same_ofText s
  | arr => cases h
  | obj => cases h

/-! ### Lists -/

/-- Text that is no date in RFC 3339 equals no date. -/
theorem Comparable.same_date_eq_false {s : String} (hzoned : Instant.zoned? s = none)
    (ht : t.dataType = .date) : (text s).same (ofTerm t) = false := by
  cases t with
  | date => simp [ofTerm, same, hzoned]
  | dates => rfl
  | _ => cases ht

/-- A scalar other than null is a member of every list that is read of an array beginning with it, unless
it is a date without offset: then it equals none of the dates in the list. -/
theorem Comparable.any_same_elements (h : Term.ofArray (v :: rest) = .ok t) (hnull : v ≠ .null) :
    t.isArray = true ∧ t.elements.isEmpty = false ∧
      (t.elements.any fun e => (ofValue v).same (ofTerm e)) = !v.isBareDate := by
  obtain ⟨t₀, hscalar, -⟩ := Result.bind_eq_ok_iff.1 h
  obtain ⟨harray, more, helements, htype⟩ := Term.elements_ofArray h hscalar hnull
  refine ⟨harray, by rw [helements]; rfl, ?_⟩
  rw [helements, List.any_cons, same_ofScalar hscalar hnull]
  cases hbare : v.isBareDate with
  | false => rfl
  | true =>
    cases v with
    | str s =>
      obtain ⟨hzoned, hread⟩ := Bool.and_eq_true_iff.1 hbare
      obtain ⟨t', ht'⟩ := Option.isSome_iff_exists.1 hread
      have hdate : t₀ = .date t' := by
        cases hscalar
        rw [Term.ofText, ht']
      rw [hdate] at htype
      refine List.any_eq_false.2 fun e he => ?_
      rw [ofValue, same_date_eq_false (Option.isNone_iff_eq_none.1 hzoned) (htype e he)]
      exact Bool.false_ne_true
    | _ => cases hbare

/-! ### Leaves -/

/-- What a leaf with an operand other than null says of an item that has the attribute. -/
theorem Leaf.holds_of_lookup? {l : Leaf} (op : Operator) (ht : t ≠ .null)
    (hv : item.lookup? l.path = some v) :
    ({ l with op, operand := some t } : Leaf).holds item = op.holds (.ofValue v) t := by
  have hpath : item.lookup? ({ l with op, operand := some t } : Leaf).path = some v := hv
  unfold holds
  rw [hpath]
  cases t with
  | null => exact absurd rfl ht
  | _ => rfl

theorem Leaf.admits_of_holds {l : Leaf} {b : Bool} (hmarker : l.isMarker = false)
    (h : l.holds item = .ok b) : (Criteria.leaf l).admits item = .ok b := by
  rw [Criteria.admits, Criteria.truth?, hmarker, h]
  rfl

/-- **What an item has under a path equals the term that it is read as, and is a member of every list
that is read of an array beginning with it, exactly if it is no date without an offset.** -/
theorem Leaf.admits_own_value {l : Leaf} (hmarker : l.isMarker = false) (hscalar : v.IsScalar)
    (hv : item.lookup? l.path = some v) :
    (∃ t, Term.ofValue v = .ok t ∧
      (Criteria.leaf { l with op := .eq, operand := some t }).admits item = .ok (!v.isBareDate)) ∧
    (v ≠ .null → ∀ rest t, Term.ofValue (.arr (v :: rest)) = .ok t →
      (Criteria.leaf { l with op := .member, operand := some t }).admits item =
        .ok (!v.isBareDate)) := by
  constructor
  · obtain ⟨t, hvalue⟩ := Term.exists_ofValue hscalar
    have ht : Term.ofScalar v = .ok t := (Term.ofValue_of_isScalar hscalar).symm.trans hvalue
    refine ⟨t, hvalue, admits_of_holds hmarker ?_⟩
    by_cases hnull : v = .null
    · subst hnull
      cases ht
      show Except.ok (isAbsent (item.lookup? l.path)) = _
      rw [hv]
      rfl
    · have hne : t ≠ .null := fun h => hnull ((Term.isArray_of_ofScalar ht).2 h)
      rw [holds_of_lookup? .eq hne hv]
      exact congrArg Except.ok (Comparable.same_ofScalar ht hnull)
  · intro hnull rest t ht
    obtain ⟨harray, hsome, hany⟩ := Comparable.any_same_elements ht hnull
    have hne : t ≠ .null := by
      rintro rfl
      cases harray
    refine admits_of_holds hmarker ?_
    rw [holds_of_lookup? .member hne hv, Operator.holds]
    simp [harray, hsome, hany]

/-- A leaf on the attribute `at`, whatever it is compared with. -/
def atLeaf : Leaf := { op := .eq, name := "at", operand := none }

/-- An item with a date, as the text that it is written in. -/
def dated (date : String) : Item := .ofList [("at", .str date)]

theorem admits_own_value_zoned :
    ∃ t ts, Term.ofValue (.str "2024-05-01T10:00:00+02:00") = .ok t ∧
      (Criteria.leaf { atLeaf with op := .eq, operand := some t }).admits
        (dated "2024-05-01T10:00:00+02:00") = .ok true ∧
      Term.ofValue (.arr [.str "2024-05-01T10:00:00+02:00", .str "2024-01-01T00:00:00"]) = .ok ts ∧
      (Criteria.leaf { atLeaf with op := .member, operand := some ts }).admits
        (dated "2024-05-01T10:00:00+02:00") = .ok true := by
  have hlookup : (dated "2024-05-01T10:00:00+02:00").lookup? atLeaf.path =
      some (.str "2024-05-01T10:00:00+02:00") := by
    decide +kernel
  have hscalar : (Value.str "2024-05-01T10:00:00+02:00").IsScalar := trivial
  have hbare : (Value.str "2024-05-01T10:00:00+02:00").isBareDate = false := by decide +kernel
  obtain ⟨⟨t, ht, hequal⟩, hmember⟩ := Leaf.admits_own_value rfl hscalar hlookup
  rw [hbare] at hequal
  refine ⟨t, _, ht, hequal, rfl, ?_⟩
  rw [hmember nofun [.str "2024-01-01T00:00:00"] _ rfl, hbare]
  rfl

/-- The start of the year 2024, in UTC. -/
def newYear : Instant := ⟨1704067200, 0, by decide, nofun⟩

/-- A date without an offset is read as an instant in UTC, alone and in a list, which the text is not
equal to. -/
theorem exists_own_value_not_admitted :
    (dated "2024-01-01T00:00:00").lookup? atLeaf.path = some (.str "2024-01-01T00:00:00") ∧
    Term.ofValue (.str "2024-01-01T00:00:00") = .ok (.date newYear) ∧
    Term.ofValue (.arr [.str "2024-01-01T00:00:00"]) = .ok (.dates [newYear]) ∧
    (Criteria.leaf { atLeaf with op := .eq, operand := some (.date newYear) }).admits
      (dated "2024-01-01T00:00:00") = .ok false ∧
    (Criteria.leaf { atLeaf with op := .member, operand := some (.dates [newYear]) }).admits
      (dated "2024-01-01T00:00:00") = .ok false := by
  refine ⟨by decide +kernel, ?_, ?_, ?_, ?_⟩
  · rfl
  · rfl
  · rfl
  · rfl

end DocumentStore
