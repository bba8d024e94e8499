import DocumentStore.Aliases
import DocumentStore.Proofs.OrderedMap
import Mathlib.Data.List.Nodup

/-! Renaming there and back.

Two tables are inverse if each leads back from where the other leads (`Aliases.Inverse`), as the two
directions of a one-to-one alias table do. Renaming an item by one and then by the other gives the item,
as long as it has no attribute under a name that the first leads to but not from
(`Aliases.Inverse.renameItem_renameItem`).

The way back is drawn anew from call to call. In a one-to-one table it is the same whatever the draw
(`Aliases.OneToOne.toExternal_eq`). -/
namespace DocumentStore.Aliases
open Json (Value)

variable {table back : OrderedMap String String} {a : Aliases} {item : Item} {hashing : HashOrder}

/-- No two external names have one stored name. -/
def OneToOne (a : Aliases) : Prop :=
  ∀ ⦃j k stored⦄, a.toStored.get? j = some stored → a.toStored.get? k = some stored → j = k

/-- Each of the tables leads back from where the other leads. -/
def Inverse (table back : OrderedMap String String) : Prop :=
  ∀ old new, back.get? new = some old ↔ table.get? old = some new

theorem Inverse.symm (h : Inverse table back) : Inverse back table := fun old new => (h new old).symm

theorem oneToOne_iff : a.OneToOne ↔ (a.toStored.entries.map Prod.snd).Nodup := by
  constructor
  · refine fun h => List.pairwise_map.2 (a.toStored.ordered.distinct.imp_of_mem ?_)
    intro e e' he he' hne heq
    have hstored := OrderedMap.get?_eq_some_iff.2 he
    have hstored' := OrderedMap.get?_eq_some_iff.2 he'
    rw [← heq] at hstored'
    exact hne (h hstored hstored')
  · intro h j k stored hj hk
    exact congrArg Prod.fst (List.inj_on_of_nodup_map h (OrderedMap.get?_eq_some_iff.1 hj)
      (OrderedMap.get?_eq_some_iff.1 hk) rfl)

instance : Decidable a.OneToOne := decidable_of_iff _ oneToOne_iff.symm

/-- The table leads from every stored name to an external one that is stored under it. -/
structure WayBack (a : Aliases) (back : OrderedMap String String) : Prop where
  sound : ∀ {stored external}, back.get? stored = some external → a.toStored.get? external = some stored
  total : ∀ {external stored}, a.toStored.get? external = some stored →
    ∃ other, back.get? stored = some other

/-- Whatever the draw, a way back comes of it. -/
theorem wayBack_toExternal (a : Aliases) (hashing : HashOrder) : a.WayBack (a.toExternal hashing) where
  sound {stored external} h := by
    rw [toExternal, OrderedMap.get?_ofList] at h
    obtain ⟨e, he, heq⟩ := List.mem_map.1 (List.mem_reverse.1 (Entries.mem_of_find? h))
    cases heq
    exact OrderedMap.get?_eq_some_iff.2 ((hashing.perm _).mem_iff.1 he)
  total {external stored} h := by
    have hmem : (stored, external) ∈
        ((hashing.arrange a.toStored.entries).map fun e => (e.2, e.1)).reverse := by
      refine List.mem_reverse.2 (List.mem_map.2 ⟨(external, stored), ?_, rfl⟩)
      exact (hashing.perm _).mem_iff.2 (OrderedMap.get?_eq_some_iff.1 h)
    rw [toExternal, OrderedMap.get?_ofList]
    exact Entries.exists_find?_of_mem hmem

/-- What a way back leads to, leads there again. -/
theorem WayBack.inverse (h : a.WayBack back) :
    Inverse back (a.toStored.filter fun external stored => back.get? stored = some external) := by
  intro stored external
  rw [OrderedMap.get?_filter_eq_some_iff, decide_eq_true_iff]
  exact ⟨And.right, fun hback => ⟨h.sound hback, hback⟩⟩

theorem OneToOne.inverse (h : a.OneToOne) (hashing : HashOrder) :
    Inverse a.toStored (a.toExternal hashing) := by
  have hback := a.wayBack_toExternal hashing
  intro external stored
  refine ⟨hback.sound, fun hstored => ?_⟩
  obtain ⟨other, hother⟩ := hback.total hstored
  rw [hother, h (hback.sound hother) hstored]

theorem Inverse.unique {back' : OrderedMap String String} (h : Inverse table back)
    (h' : Inverse table back') : back = back' := by
  refine OrderedMap.ext_get? fun new => Option.ext fun old => ?_
  rw [h old new, h' old new]

/-- A one-to-one table has one way back, whatever the draw. -/
theorem OneToOne.toExternal_eq (h : a.OneToOne) (hashing hashing' : HashOrder) :
    a.toExternal hashing' = a.toExternal hashing :=
  (h.inverse hashing').unique (h.inverse hashing)

/-- Elsewhere the draw matters. -/
example : (ofList [("a", "x"), ("b", "x")]).externalName .byKey "x" = "b" ∧
    (ofList [("a", "x"), ("b", "x")]).externalName ⟨List.reverse, List.reverse_perm⟩ "x" = "a" := by
  decide +kernel

/-! ### What a renamed item holds -/

/-- The entries of an item that a table gives another name to, under these names. -/
def movedEntries (table : OrderedMap String String) (item : Item) : List (String × Value) :=
  (item.entries.filter fun e => table.contains e.1).map fun e => (rename table e.1, e.2)

theorem mem_movedEntries_iff {new : String} {v : Value} :
    (new, v) ∈ movedEntries table item ↔
      ∃ old, table.get? old = some new ∧ item.get? old = some v := by
  unfold movedEntries
  rw [List.mem_map]
  constructor
  · intro h
    obtain ⟨e, he, heq⟩ := h
    obtain ⟨hmem, hcontains⟩ := List.mem_filter.1 he
    obtain ⟨name, hname⟩ := OrderedMap.contains_iff.1 hcontains
    rw [rename, hname] at heq
    cases heq
    exact ⟨e.1, hname, OrderedMap.get?_eq_some_iff.2 hmem⟩
  · intro h
    obtain ⟨old, hold, hv⟩ := h
    refine ⟨(old, v), List.mem_filter.2 ⟨OrderedMap.get?_eq_some_iff.1 hv, ?_⟩, ?_⟩
    · exact OrderedMap.contains_iff.2 ⟨new, hold⟩
    · rw [rename, hold]
      rfl

/-- A table that leads back gives no two entries one name. -/
theorem Inverse.distinct_movedEntries (h : Inverse table back) (item : Item) :
    Entries.Distinct (movedEntries table item) := by
  refine List.pairwise_map.2 ((item.ordered.distinct.filter _).imp_of_mem ?_)
  intro e e' he he' hne heq
  obtain ⟨new, hnew⟩ := OrderedMap.contains_iff.1 (List.mem_filter.1 he).2
  obtain ⟨new', hnew'⟩ := OrderedMap.contains_iff.1 (List.mem_filter.1 he').2
  rw [rename, rename, hnew, hnew'] at heq
  obtain rfl : new = new' := heq
  have hback := (h e.1 new).2 hnew
  rw [(h e'.1 new).2 hnew'] at hback
  exact hne (Option.some.inj hback).symm

theorem Inverse.find?_movedEntries (h : Inverse table back) (item : Item) (name : String) :
    Entries.find? name (movedEntries table item) = (back.get? name).bind item.get? := by
  refine Option.ext fun v => ?_
  rw [Entries.find?_eq_some_iff (h.distinct_movedEntries item), mem_movedEntries_iff,
    Option.bind_eq_some_iff]
  exact exists_congr fun old => and_congr_left' (h old name).symm

/-- The attributes that keep their name are entered first, and the renamed ones behind them. -/
theorem renameItem_eq (table : OrderedMap String String) (item : Item) : renameItem table item =
    .ofList ((item.entries.filter fun e => !table.contains e.1) ++ movedEntries table item) := by
  rw [renameItem, List.partition_eq_filter_filter]
  rfl

/-- A renamed item has under a name what the table moves there, or else what it leaves there. -/
theorem Inverse.get?_renameItem (h : Inverse table back) (item : Item) (name : String) :
    (renameItem table item).get? name =
      ((back.get? name).bind item.get?).or
        (if table.contains name then none else item.get? name) := by
  have hkept : Entries.Distinct (item.entries.filter fun e => !table.contains e.1) :=
    item.ordered.distinct.filter _
  rw [renameItem_eq, OrderedMap.get?_ofList, List.reverse_append, Entries.find?_append,
    Entries.find?_reverse hkept, Entries.find?_reverse (h.distinct_movedEntries item),
    h.find?_movedEntries, Entries.find?_filter fun name => !table.contains name]
  cases table.contains name <;> rfl

/-! ### There and back -/

/-- The table leads to the name, and not from it. -/
def OnlyNew (table : OrderedMap String String) (name : String) : Prop :=
  (∃ old, table.get? old = some name) ∧ table.get? name = none

/-- An attribute is found again where the table moves it, as nothing else was there. -/
theorem Inverse.get?_renameItem_moved (h : Inverse table back)
    (hitem : ∀ name, OnlyNew table name → item.get? name = none) {old new : String}
    (hmoved : table.get? old = some new) : (renameItem table item).get? new = item.get? old := by
  have hnone : (if table.contains new then none else item.get? new) = none := by
    split
    · rfl
    · next hkept => exact hitem new ⟨⟨old, hmoved⟩, Option.not_isSome_iff_eq_none.1 hkept⟩
  rw [h.get?_renameItem, (h old new).2 hmoved, hnone, Option.or_none]
  rfl

theorem Inverse.get?_renameItem_kept (h : Inverse table back) {name : String}
    (hnone : back.get? name = none) :
    (renameItem table item).get? name = if table.contains name then none else item.get? name := by
  rw [h.get?_renameItem, hnone]
  rfl

/-- **Renaming an item by a table and then back leaves it as it is, if it has no attribute under a name
that the table leads to and not from.** -/
theorem Inverse.renameItem_renameItem (h : Inverse table back)
    (hitem : ∀ name, OnlyNew table name → item.get? name = none) :
    renameItem back (renameItem table item) = item := by
  refine OrderedMap.ext_get? fun name => ?_
  rw [h.symm.get?_renameItem]
  cases hmoved : table.get? name with
  | some new =>
    have hgone : (if back.contains name then none else (renameItem table item).get? name) = none := by
      split
      · rfl
      · next hfree =>
        rw [h.get?_renameItem_kept (Option.not_isSome_iff_eq_none.1 hfree),
          if_pos (OrderedMap.contains_iff.2 ⟨new, hmoved⟩)]
    rw [hgone, Option.or_none]
    exact h.get?_renameItem_moved hitem hmoved
  | none =>
    show (if back.contains name then none else (renameItem table item).get? name) = item.get? name
    split
    · next hnew =>
      obtain ⟨old, hold⟩ := OrderedMap.contains_iff.1 hnew
      exact (hitem name ⟨⟨old, (h old name).1 hold⟩, hmoved⟩).symm
    · next hfree =>
      rw [h.get?_renameItem_kept (Option.not_isSome_iff_eq_none.1 hfree), OrderedMap.contains, hmoved]
      rfl

/-! ### Alias tables -/

theorem OneToOne.externalItem_storedItem (h : a.OneToOne)
    (hitem : ∀ name, OnlyNew a.toStored name → item.get? name = none) :
    a.externalItem hashing (a.storedItem item) = item :=
  (h.inverse hashing).renameItem_renameItem hitem

/-- The table stores the name under another one, and nothing under the name. -/
def OnlyExternal (a : Aliases) (name : String) : Prop :=
  (∃ stored, a.toStored.get? name = some stored) ∧ ∀ other, a.toStored.get? other ≠ some name

theorem onlyExternal_iff {name : String} :
    a.OnlyExternal name ↔ name ∈ a.toStored.keys ∧ name ∉ a.toStored.values := by
  have hkeys : (∃ stored, a.toStored.get? name = some stored) ↔ name ∈ a.toStored.keys := by
    simp [OrderedMap.keys, OrderedMap.get?_eq_some_iff]
  have hvalues : (∀ other, a.toStored.get? other ≠ some name) ↔ name ∉ a.toStored.values := by
    simp [OrderedMap.values, OrderedMap.get?_eq_some_iff]
  rw [OnlyExternal, hkeys, hvalues]

instance {name : String} : Decidable (a.OnlyExternal name) := decidable_of_iff _ onlyExternal_iff.symm

/-- In a one-to-one table the names that are only external ones are those that the way back leads to, and
not from. -/
theorem OneToOne.onlyExternal_iff_onlyNew (h : a.OneToOne) (hashing : HashOrder) {name : String} :
    a.OnlyExternal name ↔ OnlyNew (a.toExternal hashing) name := by
  apply and_congr
  · exact exists_congr fun stored => (h.inverse hashing name stored).symm
  · rw [Option.eq_none_iff_forall_ne_some]
    exact forall_congr' fun other => not_congr (h.inverse hashing other name).symm

/-- The table neither renames a system field nor renames an attribute to one. -/
def AvoidsSystemFields (a : Aliases) : Prop :=
  ∀ name stored, a.toStored.get? name = some stored →
    name ∉ Reserved.systemFields ∧ stored ∉ Reserved.systemFields

theorem avoidsSystemFields_iff : a.AvoidsSystemFields ↔ ∀ e ∈ a.toStored.entries,
    e.1 ∉ Reserved.systemFields ∧ e.2 ∉ Reserved.systemFields := by
  constructor
  · exact fun h e he => h e.1 e.2 (OrderedMap.get?_eq_some_iff.2 he)
  · exact fun h name stored hstored => h (name, stored) (OrderedMap.get?_eq_some_iff.1 hstored)

instance : Decidable a.AvoidsSystemFields := decidable_of_iff _ avoidsSystemFields_iff.symm

/-- An item without system fields is stored without them. -/
theorem OneToOne.get?_storedItem_systemField (h : a.OneToOne) (hsystem : a.AvoidsSystemFields)
    {name : String} (hname : name ∈ Reserved.systemFields) (hnone : item.get? name = none) :
    (a.storedItem item).get? name = none := by
  have hinverse := h.inverse .byKey
  have hfree : (a.toExternal .byKey).get? name = none := by
    refine Option.eq_none_iff_forall_ne_some.2 fun external hexternal => ?_
    exact (hsystem external name ((hinverse external name).1 hexternal)).2 hname
  rw [storedItem, hinverse.get?_renameItem_kept hfree, hnone, ite_self]

end DocumentStore.Aliases
