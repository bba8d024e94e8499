import DocumentStore.Proofs.Aliases
import DocumentStore.Proofs.Item
import DocumentStore.Service.Basic

/-! What callers see of a stored item.

A call draws a way back from stored names to external ones, and shows an item by it: without system fields, and
with a renamed attribute before one that has its name already (`Schema.external_eq_iff`). Calls that draw the
same way back show an item alike, and so do all calls where the aliases are one-to-one
(`Schema.DrawsAlike`). -/
namespace DocumentStore
open Json (Value)

/-- What a stored item has under a name, where callers get to see it. -/
def Item.visible? (item : Item) (name : String) : Option Value :=
  if name ∈ Reserved.systemFields then none else item.get? name

theorem Item.get?_withoutSystemFields_eq (item : Item) (name : String) :
    item.withoutSystemFields.get? name = item.visible? name := by
  unfold visible?
  split
  · next h => exact get?_withoutSystemFields_of_mem h
  · next h => exact get?_withoutSystemFields h

/-- What a way back from stored names makes of a stored item. An attribute that it leads to a name is shown
under the name. Where it leads none there, an attribute that it leads nowhere keeps the name, and one that it
leads elsewhere leaves it free. -/
structure Item.ShowsBy (back : OrderedMap String String) (item shown : Item) : Prop where
  renamed : ∀ {stored name v}, back.get? stored = some name → item.visible? stored = some v →
    shown.get? name = some v
  kept : ∀ {name}, (∀ stored, back.get? stored = some name → item.visible? stored = none) →
    back.get? name = none → shown.get? name = item.visible? name
  free : ∀ {name other}, (∀ stored, back.get? stored = some name → item.visible? stored = none) →
    back.get? name = some other → shown.get? name = none

variable {schema : Schema} {back : OrderedMap String String} {item shown shown' : Item}
  {hashing hashing' : HashOrder}

/-- A way back makes one thing of an item. -/
theorem Item.ShowsBy.unique (h : item.ShowsBy back shown) (h' : item.ShowsBy back shown') :
    shown = shown' := by
  refine OrderedMap.ext_get? fun name => ?_
  by_cases hled : ∀ stored, back.get? stored = some name → item.visible? stored = none
  · cases hback : back.get? name with
    | none => rw [h.kept hled hback, h'.kept hled hback]
    | some other => rw [h.free hled hback, h'.free hled hback]
  · push Not at hled
    obtain ⟨stored, hstored, hsome⟩ := hled
    obtain ⟨v, hv⟩ := Option.ne_none_iff_exists'.1 hsome
    rw [h.renamed hstored hv, h'.renamed hstored hv]

theorem Aliases.WayBack.showsBy {a : Aliases} (h : a.WayBack back) (item : Item) :
    item.ShowsBy back (Aliases.renameItem back item.withoutSystemFields) := by
  have hvisible : item.withoutSystemFields.get? = item.visible? := funext item.get?_withoutSystemFields_eq
  have hnone {name : String} (hled : ∀ stored, back.get? stored = some name → item.visible? stored = none) :
      (Aliases.renameItem back item.withoutSystemFields).get? name =
        if back.contains name then none else item.visible? name := by
    rw [h.inverse.get?_renameItem, hvisible, Option.bind_eq_none_iff.2, Option.none_or]
    exact fun stored hstored => hled stored ((h.inverse stored name).1 hstored)
  refine ⟨fun {stored name v} hback hv => ?_, fun {name} hled hback => ?_, fun {name other} hled hback => ?_⟩
  · rw [h.inverse.get?_renameItem, hvisible, (h.inverse stored name).2 hback, Option.bind_some, hv,
      Option.some_or]
  · rw [hnone hled, OrderedMap.contains, hback]
    rfl
  · rw [hnone hled, OrderedMap.contains, hback]
    rfl

/-- **Callers see of an item what a way back makes of it.** -/
theorem Schema.external_eq_iff : schema.external hashing item = shown ↔
    item.ShowsBy (schema.aliases.toExternal hashing) shown := by
  have hshown := (schema.aliases.wayBack_toExternal hashing).showsBy item
  exact ⟨fun h => h ▸ hshown, fun h => hshown.unique h⟩

theorem Schema.exists_wayBack (schema : Schema) (hashing : HashOrder) :
    ∃ back, schema.aliases.WayBack back ∧ ∀ item : Item, item.ShowsBy back (schema.external hashing item) :=
  ⟨_, schema.aliases.wayBack_toExternal hashing, fun _ => Schema.external_eq_iff.1 rfl⟩

/-- Two calls show the items of a container alike: they draw the same way back, or there is no other to draw,
as the aliases are one-to-one. -/
def Schema.DrawsAlike (schema : Schema) (hashing hashing' : HashOrder) : Prop :=
  hashing' = hashing ∨ schema.aliases.OneToOne

theorem Schema.DrawsAlike.external_eq (h : schema.DrawsAlike hashing hashing') :
    schema.external hashing' = schema.external hashing := by
  obtain rfl | hone := h
  · rfl
  · unfold external Aliases.externalItem
    rw [hone.toExternal_eq hashing hashing']

end DocumentStore
