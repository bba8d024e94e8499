import DocumentStore.Aliases
import DocumentStore.Filter.Truth
import DocumentStore.Proofs.Criteria.Leaves

/-! Markers before and after attributes are renamed.

Callers write markers under external names, and the evaluator finds them under stored ones. Both mean
the same leaves exactly if the alias table keeps the name `isDeleted` to itself. -/
namespace DocumentStore

/-- The table neither renames `isDeleted` nor renames another attribute to it. -/
structure Aliases.KeepsMarker (a : Aliases) : Prop where
  stored : a.storedName Reserved.isDeleted = Reserved.isDeleted
  only : ∀ name, a.storedName name = Reserved.isDeleted → name = Reserved.isDeleted

namespace Aliases

theorem storedName_of_mem {a : Aliases} {e : String × String} (h : e ∈ a.toStored.entries) :
    a.storedName e.1 = e.2 := by
  unfold storedName rename OrderedMap.get?
  rw [a.toStored.ordered.find?_of_mem h]
  rfl

/-- A name is stored as it is, or as an entry of the table says. -/
theorem storedName_eq_or_mem (a : Aliases) (name : String) :
    a.storedName name = name ∨ (name, a.storedName name) ∈ a.toStored.entries := by
  unfold storedName rename OrderedMap.get?
  cases h : Entries.find? name a.toStored.entries with
  | none => exact .inl rfl
  | some stored => exact .inr (Entries.mem_of_find? h)

/-- Of the entries of such a table none but one on `isDeleted` gives that name, and one on it gives
no other. -/
theorem keepsMarker_iff (a : Aliases) :
    a.KeepsMarker ↔
      ∀ e ∈ a.toStored.entries, e.2 = Reserved.isDeleted ↔ e.1 = Reserved.isDeleted := by
  constructor
  · intro h e he
    rw [← storedName_of_mem he]
    exact ⟨h.only e.1, fun hname => hname ▸ h.stored⟩
  · intro h
    refine ⟨?_, fun name hname => ?_⟩
    · rcases a.storedName_eq_or_mem Reserved.isDeleted with hsame | hmem
      · exact hsame
      · exact (h _ hmem).2 rfl
    · rcases a.storedName_eq_or_mem name with hsame | hmem
      · exact hsame.symm.trans hname
      · exact (h _ hmem).1 hname

instance (a : Aliases) : Decidable a.KeepsMarker :=
  decidable_of_iff _ a.keepsMarker_iff.symm

end Aliases

namespace Leaf

theorem isMarker_iff (l : Leaf) : l.isMarker = true ↔ l.name = Reserved.isDeleted := beq_iff_eq

/-- A leaf stays what it is under the table: a marker, or none. -/
def KeepsMarker (a : Aliases) (l : Leaf) : Prop :=
  a.storedName l.name = Reserved.isDeleted ↔ l.name = Reserved.isDeleted

instance (a : Aliases) (l : Leaf) : Decidable (l.KeepsMarker a) :=
  inferInstanceAs (Decidable (_ ↔ _))

theorem isMarker_renamed_iff (f : String → String) (l : Leaf) :
    (l.renamed f).isMarker = true ↔ f l.name = Reserved.isDeleted := isMarker_iff _

/-- A table that keeps the name to itself changes no leaf into a marker or out of one. -/
theorem isMarker_renamed {a : Aliases} (ha : a.KeepsMarker) (l : Leaf) :
    (l.renamed a.storedName).isMarker = l.isMarker := by
  rw [Bool.eq_iff_iff, isMarker_renamed_iff, isMarker_iff]
  exact ⟨ha.only l.name, fun h => h ▸ ha.stored⟩

/-- The evaluator passes over a leaf. -/
def IsBlank (l : Leaf) : Prop := ∀ item, (Criteria.leaf l).truth? item = .ok none

/-- It does so with markers alone. -/
theorem isBlank_iff (l : Leaf) : l.IsBlank ↔ l.isMarker = true := by
  constructor
  · intro h
    have hempty := h .empty
    cases hm : l.isMarker with
    | true => rfl
    | false =>
      simp only [Criteria.truth?, hm] at hempty
      cases hholds : l.holds .empty with
      | error e => rw [hholds] at hempty; cases hempty
      | ok b => rw [hholds] at hempty; cases hempty
  · intro hm item
    simp [Criteria.truth?, hm]

end Leaf
end DocumentStore
