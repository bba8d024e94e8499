import DocumentStore.Proofs.Criteria.Markers
import DocumentStore.Proofs.Store.Results
import DocumentStore.Query.Search

/-! What a match by key value finds.

Its filter is one leaf on the stored name of the key. A boolean, or a string that is no date, is found
where an item has just that value (`kept_keyLeaf_iff`), unless the key is stored as `isDeleted`: the
leaf is then taken for a marker, and all items are found that are not soft-deleted, whatever the value
(`kept_keyLeaf_marker_iff`). -/
namespace DocumentStore
open Json (Value)

/-- A boolean, or a string that is no date. -/
def Json.Value.IsPlain : Value → Prop
  | .bool _ => True
  | .str s => Calendar.Instant.read? s = none
  | _ => False

/-- The leaf that a match by key value is made of. -/
def Schema.keyLeaf (s : Schema) (key : String) (operand : Term) : Leaf :=
  { op := .eq, name := s.aliases.storedName key, operand := some operand }

namespace Query

theorem keyMatch_eq_ok {s : Schema} {key : String} {value : Value} {q : Query}
    (h : keyMatch s key value = .ok q) :
    q.Exhaustive ∧ ∃ operand, Term.ofValue value = .ok operand ∧
      q.filter = some (.leaf (s.keyLeaf key operand)) := by
  obtain ⟨operand, hoperand, h⟩ := Result.bind_eq_ok_iff.1 h
  cases h
  exact ⟨⟨rfl, rfl, rfl, rfl, rfl⟩, operand, hoperand, rfl⟩

end Query

/-- Plain values become terms of their own kind. -/
theorem Term.eq_of_isPlain {value : Value} (h : value.IsPlain) {operand : Term}
    (hoperand : ofValue value = .ok operand) :
    (∃ b, value = .bool b ∧ operand = boolean b) ∨ ∃ s, value = .str s ∧ operand = string s := by
  cases value with
  | bool b =>
    cases hoperand
    exact .inl ⟨b, rfl, rfl⟩
  | str s =>
    have hread : Calendar.Instant.read? s = none := h
    have hterm : ofValue (.str s) = .ok (string s) := by
      show Except.ok (ofText s) = _
      rw [ofText, hread]
    cases hterm.symm.trans hoperand
    exact .inr ⟨s, rfl, rfl⟩
  | _ => cases h

theorem Comparable.same_ofTerm_iff {value : Value} (h : value.IsPlain) {operand : Term}
    (hoperand : Term.ofValue value = .ok operand) (v : Value) :
    (ofValue v).same (ofTerm operand) = true ↔ v = value := by
  obtain ⟨b, rfl, rfl⟩ | ⟨s, rfl, rfl⟩ := Term.eq_of_isPlain h hoperand
  · cases v <;> simp [ofValue, ofTerm, same]
  · cases v <;> simp [ofValue, ofTerm, same]

/-- The leaf holds of the items that have just the value. -/
theorem Leaf.holds_keyLeaf {s : Schema} {key : String} {value : Value} (h : value.IsPlain)
    {operand : Term} (hoperand : Term.ofValue value = .ok operand) (item : Item) :
    ∃ b, (s.keyLeaf key operand).holds item = .ok b ∧
      (b = true ↔ item.lookup? (s.aliases.storedName key) = some value) := by
  have hpath : (s.keyLeaf key operand).path = s.aliases.storedName key := rfl
  unfold holds
  rw [hpath]
  cases item.lookup? (s.aliases.storedName key) with
  | none =>
    refine ⟨false, ?_, by simp⟩
    obtain ⟨b, -, rfl⟩ | ⟨t, -, rfl⟩ := Term.eq_of_isPlain h hoperand <;> rfl
  | some v =>
    refine ⟨(Comparable.ofValue v).same (.ofTerm operand), ?_, ?_⟩
    · obtain ⟨b, -, rfl⟩ | ⟨t, -, rfl⟩ := Term.eq_of_isPlain h hoperand <;> rfl
    · rw [Comparable.same_ofTerm_iff h hoperand, Option.some_inj]

/-- On a name that is no marker's the filter keeps what the leaf holds of. -/
theorem kept_keyLeaf_of_holds {s : Schema} {key : String} {operand : Term} {item : Item} {b : Bool}
    (hname : s.aliases.storedName key ≠ Reserved.isDeleted)
    (hholds : (s.keyLeaf key operand).holds item = .ok b) :
    kept (some (.leaf (s.keyLeaf key operand))) item = b := by
  have hmarker : (s.keyLeaf key operand).isMarker = false := beq_false_of_ne hname
  have hreferences : (Criteria.leaf (s.keyLeaf key operand)).references Reserved.isDeleted = false :=
    beq_false_of_ne hname
  have hkeeps : keeps (some (.leaf (s.keyLeaf key operand))) item = .ok b := by
    simp only [keeps, hreferences, Bool.false_and, Criteria.admits, Criteria.truth?, hmarker, hholds]
    rfl
  exact kept_of_keeps hkeeps

theorem kept_keyLeaf_iff {s : Schema} {key : String} {value : Value} (h : value.IsPlain)
    {operand : Term} (hoperand : Term.ofValue value = .ok operand)
    (hname : s.aliases.storedName key ≠ Reserved.isDeleted) (item : Item) :
    kept (some (.leaf (s.keyLeaf key operand))) item = true ↔
      item.lookup? (s.aliases.storedName key) = some value := by
  obtain ⟨b, hholds, hb⟩ : ∃ b, (s.keyLeaf key operand).holds item = .ok b ∧
      (b = true ↔ item.lookup? (s.aliases.storedName key) = some value) :=
    Leaf.holds_keyLeaf h hoperand item
  rw [← hb, kept_keyLeaf_of_holds hname hholds]

theorem kept_keyLeaf_marker_iff {s : Schema} {key : String} (operand : Term)
    (hname : s.aliases.storedName key = Reserved.isDeleted) (item : Item) :
    kept (some (.leaf (s.keyLeaf key operand))) item = true ↔ item.isDeleted = false := by
  have hmarker : (s.keyLeaf key operand).isMarker = true := beq_iff_eq.2 hname
  have hreferences : (Criteria.leaf (s.keyLeaf key operand)).references Reserved.isDeleted = true :=
    beq_iff_eq.2 hname
  have hkeeps : keeps (some (.leaf (s.keyLeaf key operand))) item = .ok (!item.isDeleted) := by
    simp only [keeps, hreferences, Bool.true_and, Criteria.admits, Criteria.truth?, hmarker]
    cases item.isDeleted <;> rfl
  rw [kept_of_keeps hkeeps, Bool.not_eq_true']

end DocumentStore
