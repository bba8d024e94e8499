import DocumentStore.Filter.Truth
import DocumentStore.Proofs.Criteria.Leaves
import DocumentStore.Proofs.Result

/-! What filters fail with.

A filter fails on an item for one kind of reason: a leaf of it cannot be carried out. So whatever else goes
wrong with a query does not come of its filter (`isMisuse_of_select`). -/
namespace DocumentStore

/-- The criteria cannot be carried out. -/
def Error.IsMisuse (e : Error) : Prop := ∃ cause, e = .argument cause

variable {e : Error} {item : Item}

theorem Operator.isMisuse_of_holds {op : Operator} {left : Comparable} {operand : Term}
    (h : op.holds left operand = .error e) : e.IsMisuse := by
  unfold Operator.holds at h
  cases op with
  | eq | ne | lt | lte | gt | gte => cases h
  | and | or | not | contains =>
    cases h
    exact ⟨_, rfl⟩
  | member | between =>
    dsimp only at h
    split at h
    · cases h
    · cases h
      exact ⟨_, rfl⟩

theorem Leaf.isMisuse_of_holds {l : Leaf} (h : l.holds item = .error e) : e.IsMisuse := by
  unfold Leaf.holds at h
  split at h
  · cases h
    exact ⟨_, rfl⟩
  · split at h <;> cases h
  · split at h
    · cases h
    · exact Operator.isMisuse_of_holds h

namespace Criteria

/-- Where a conjunction fails, one of its terms does, -/
theorem exists_of_all?_eq_error {terms : List Criteria} (h : all? item terms = .error e) :
    ∃ t ∈ terms, t.truth? item = .error e := by
  induction terms with
  | nil => cases h
  | cons t rest ih =>
    have hrest (h : all? item rest = .error e) : ∃ t' ∈ t :: rest, t'.truth? item = .error e :=
      (ih h).imp fun _ => And.imp_left (List.mem_cons_of_mem t)
    rw [all?] at h
    obtain ht | ⟨value, -, h⟩ := Result.bind_eq_error_iff.1 h
    · exact ⟨t, List.mem_cons_self, ht⟩
    · match value, h with
      | none, h => exact hrest h
      | some false, h => cases h
      | some true, h =>
        obtain h | ⟨_, -, h⟩ := Result.bind_eq_error_iff.1 h
        · exact hrest h
        · cases h

/-- and so where a disjunction does. -/
theorem exists_of_any?_eq_error {terms : List Criteria} (h : any? item terms = .error e) :
    ∃ t ∈ terms, t.truth? item = .error e := by
  induction terms with
  | nil => cases h
  | cons t rest ih =>
    have hrest (h : any? item rest = .error e) : ∃ t' ∈ t :: rest, t'.truth? item = .error e :=
      (ih h).imp fun _ => And.imp_left (List.mem_cons_of_mem t)
    rw [any?] at h
    obtain ht | ⟨value, -, h⟩ := Result.bind_eq_error_iff.1 h
    · exact ⟨t, List.mem_cons_self, ht⟩
    · match value, h with
      | none, h => exact hrest h
      | some true, h => cases h
      | some false, h =>
        obtain h | ⟨_, -, h⟩ := Result.bind_eq_error_iff.1 h
        · exact hrest h
        · cases h

theorem isMisuse_of_truth? {c : Criteria} (h : c.truth? item = .error e) : e.IsMisuse := by
  induction c with
  | leaf l =>
    rw [truth?] at h
    split at h
    · cases h
    · exact Leaf.isMisuse_of_holds (Result.map_eq_error_iff.1 h)
  | join op terms parent ih =>
    obtain ⟨t, ht, h⟩ : ∃ t ∈ terms, t.truth? item = .error e := by
      cases op with
      | and => exact exists_of_all?_eq_error (by rwa [truth?] at h)
      | or => exact exists_of_any?_eq_error (by rwa [truth?] at h)
    exact ih t ht h

end Criteria

theorem isMisuse_of_keeps {filter : Option Criteria} (h : keeps filter item = .error e) : e.IsMisuse := by
  unfold keeps at h
  split at h
  · cases h
  · split at h
    · cases h
    · obtain h | ⟨_, -, h⟩ := Result.bind_eq_error_iff.1 h
      · exact Criteria.isMisuse_of_truth? h
      · cases h

/-- **Where a filter fails, its criteria cannot be carried out.** -/
theorem isMisuse_of_select {filter : Option Criteria} {items : List Item}
    (h : select filter items = .error e) : e.IsMisuse := by
  induction items with
  | nil => cases h
  | cons item rest ih =>
    obtain h | ⟨_, -, h⟩ := Result.bind_eq_error_iff.1 h
    · exact isMisuse_of_keeps h
    · obtain h | ⟨_, -, h⟩ := Result.bind_eq_error_iff.1 h
      · exact ih h
      · cases h

end DocumentStore
