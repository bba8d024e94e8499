import DocumentStore.Proofs.Aliases.Collisions
import DocumentStore.Proofs.Filter.Renaming

/-! Which items come back from being renamed.

A name that a table leads from and not to is free in every item renamed by it, one-to-one or not
(`get?_renameItem_of_left`). So what is stored has nothing under a name that is only external, and what is
shown nothing under one that is only stored. An item that has something there is therefore never what
comes of renaming, and every other item is (`renamed_back_iff`). -/
namespace DocumentStore.Aliases

variable {table : OrderedMap String String} {a : Aliases} {item : Item} {name : String}
  {hashing : HashOrder}

/-- A name that the table renames, and that it gives to no attribute, is left free. -/
theorem get?_renameItem_of_left (hleft : ∃ new, table.get? name = some new)
    (hnone : ∀ old, table.get? old ≠ some name) (item : Item) :
    (renameItem table item).get? name = none := by
  have hmoved : lastMoved? table item name = none := by
    apply Option.eq_none_iff_forall_ne_some.2
    intro key hkey
    exact hnone key (of_lastMoved? hkey).1
  rw [get?_renameItem, claimant?, hmoved, if_pos (OrderedMap.contains_iff.2 hleft)]
  rfl

/-- The item has no attribute under a name that is only an external one. -/
def KeepsToStored (a : Aliases) (item : Item) : Prop :=
  ∀ name, a.OnlyExternal name → item.get? name = none

instance : Decidable (a.KeepsToStored item) :=
  decidable_of_iff (∀ name ∈ a.toStored.keys, name ∉ a.toStored.values → item.get? name = none) <| by
    simp only [KeepsToStored, onlyExternal_iff, and_imp]

/-- Whatever is stored keeps to stored names. -/
theorem keepsToStored_storedItem (a : Aliases) (item : Item) : a.KeepsToStored (a.storedItem item) :=
  fun _ h => get?_renameItem_of_left h.1 h.2 item

section OneToOne
variable (h : a.OneToOne)
include h

/-- Whatever is shown keeps to external names. -/
theorem OneToOne.keepsToExternal_externalItem (item : Item) :
    a.KeepsToExternal (a.externalItem hashing item) := by
  intro name hname
  obtain ⟨⟨old, hold⟩, hnone⟩ := hname
  apply get?_renameItem_of_left
  · exact ⟨old, (h.inverse hashing old name).2 hold⟩
  · intro stored hstored
    rw [(h.inverse hashing name stored).1 hstored] at hnone
    cases hnone

theorem OneToOne.storedItem_externalItem (hitem : a.KeepsToStored item) :
    a.storedItem (a.externalItem hashing item) = item :=
  (h.inverse hashing).symm.renameItem_renameItem fun name hname =>
    hitem name ((h.onlyExternal_iff_onlyNew hashing).2 hname)

end OneToOne

/-- **A one-to-one table gives an item back from being stored and shown exactly if it has no attribute
under a name that is only a stored one, and from being shown and stored exactly if it has none under a name
that is only an external one, whichever way back a call draws. No item at all has one of those when it is
stored, by whatever table.** -/
theorem renamed_back_iff (a : Aliases) :
    (a.OneToOne → ∀ (hashing : HashOrder) (item : Item),
      (a.externalItem hashing (a.storedItem item) = item ↔ a.KeepsToExternal item) ∧
      (a.storedItem (a.externalItem hashing item) = item ↔ a.KeepsToStored item)) ∧
    ∀ item : Item, a.KeepsToStored (a.storedItem item) := by
  refine ⟨fun h hashing item => ⟨⟨fun hback => ?_, fun hitem => ?_⟩, fun hback => ?_, fun hitem => ?_⟩,
    a.keepsToStored_storedItem⟩
  · rw [← hback]
    exact h.keepsToExternal_externalItem _
  · exact h.externalItem_storedItem hitem
  · rw [← hback]
    exact a.keepsToStored_storedItem _
  · exact h.storedItem_externalItem hitem

/-- Names that are swapped and a chain of names come back; what is under the end of the chain does not. -/
theorem renamed_back_crossed :
    crossed.externalItem .byKey (crossed.storedItem outbound) = outbound ∧
    crossed.storedItem (crossed.externalItem .byKey (crossed.storedItem outbound)) =
      crossed.storedItem outbound ∧
    crossed.externalItem .byKey (crossed.storedItem (.ofList [("reference", .str "r")])) ≠
      .ofList [("reference", .str "r")] ∧
    crossed.KeepsToStored (crossed.storedItem (.ofList [("timerId", .str "t1"), ("reference", .str "r")])) := by
  have hback := (renamed_back_iff crossed).1 (by decide) .byKey
  refine ⟨(hback outbound).1.2 (by decide +kernel), (hback _).2.2 (by decide +kernel), ?_,
    (renamed_back_iff crossed).2 _⟩
  rw [ne_eq, (hback _).1]
  decide +kernel

end DocumentStore.Aliases
