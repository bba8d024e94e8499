import DocumentStore.Proofs.Item
import DocumentStore.Proofs.Service.Requests

/-! What a revised item holds, attribute by attribute.

An update overlays the attributes that it sets (`get?_revised`), a mark sets two names of its own
(`get?_marked`), and filing a revision sets the id and the system fields (`get?_refiled`). -/
namespace DocumentStore

namespace Item

/-- What the changes hold counts, and what they lack stays as it was. -/
theorem get?_overlaid (item changes : Item) (name : String) :
    (item.overlaid changes).get? name = (changes.get? name).or (item.get? name) := by
  obtain ⟨es, hordered⟩ := changes
  show (es.foldl _ item).get? name = (Entries.find? name es).or _
  induction es generalizing item with
  | nil => rfl
  | cons e rest ih =>
    obtain ⟨hhead, htail⟩ := List.pairwise_cons.1 hordered
    rw [List.foldl_cons, ih _ htail, Entries.find?_cons, OrderedMap.get?_insert]
    by_cases hname : name = e.1
    · -- No later entry has the name, since names increase.
      have hnone : Entries.find? name rest = none := by
        cases hfound : Entries.find? name rest with
        | none => rfl
        | some v =>
          have hlt := hhead _ (Entries.mem_of_find? hfound)
          simp [hname] at hlt
      rw [if_pos hname, if_pos hname, hnone]
      rfl
    · rw [if_neg hname, if_neg hname]

theorem get?_revised {aliases : Aliases} {updates old : Item} {name : String}
    (h : name ∉ Reserved.systemFields) :
    (revised aliases updates old).get? name =
      ((aliases.storedItem updates).get? name).or (old.get? name) := by
  rw [revised, get?_overlaid, get?_withoutSystemFields h, get?_withoutSystemFields h]

theorem get?_marked {deleted : Bool} {delay : Option PurgeDelay} {item : Item} {name : String}
    (hsystem : name ∉ Reserved.systemFields) (hmark : name ≠ Reserved.isDeleted)
    (hpurge : delay.isSome → name ≠ Reserved.ttl) :
    (marked deleted delay item).get? name = item.get? name := by
  unfold marked
  rw [get?_withoutSystemFields hsystem]
  cases delay with
  | none => cases deleted <;> simp [hmark]
  | some d => cases deleted <;> simp [hmark, hpurge rfl]

end Item

theorem Service.get?_refiled {m : Memory} {s : Store} {container id : String} {item : Item}
    {name : String} (h : name ∉ Reserved.systemFields) :
    (refiled m s container id item).get? name =
      if name = Reserved.id then some (.str id) else item.get? name := by
  rw [refiled, Item.get?_stamped h, OrderedMap.get?_insert]

end DocumentStore
