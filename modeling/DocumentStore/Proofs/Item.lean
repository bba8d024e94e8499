import DocumentStore.Store.Stamp

/-! Items with and without the fields that the store stamps on them. -/
namespace DocumentStore.Item

variable {item : Item} {name : String}

theorem get?_id_iff {id : String} : item.get? Reserved.id = some (.str id) ↔ item.id? = some id := by
  unfold id?
  cases item.get? Reserved.id with
  | none => exact ⟨nofun, nofun⟩
  | some v => cases v <;> simp [Json.Value.text?]

theorem id?_stamped {stamp : Stamp} {container : String} :
    (item.stamped stamp container).id? = item.id? := by
  rw [id?, get?_stamped (by decide), id?]

theorem isSome_get?_stamped {stamp : Stamp} {container : String} (h : name ∈ Reserved.systemFields) :
    ((item.stamped stamp container).get? name).isSome = true := by
  simp only [Reserved.systemFields, List.mem_cons, List.not_mem_nil, or_false] at h
  obtain rfl | rfl | rfl | rfl | rfl := h <;> simp [stamped]

theorem get?_withoutSystemFields (h : name ∉ Reserved.systemFields) :
    item.withoutSystemFields.get? name = item.get? name := by
  simp only [Reserved.systemFields, List.mem_cons, List.not_mem_nil, or_false, not_or] at h
  simp [withoutSystemFields, Reserved.systemFields, h]

theorem get?_withoutSystemFields_of_mem (h : name ∈ Reserved.systemFields) :
    item.withoutSystemFields.get? name = none := by
  simp only [Reserved.systemFields, List.mem_cons, List.not_mem_nil, or_false] at h
  obtain rfl | rfl | rfl | rfl | rfl := h <;> simp [withoutSystemFields, Reserved.systemFields]

/-- Two items that differ in system fields at most are the same without them. -/
theorem withoutSystemFields_congr {item' : Item}
    (h : ∀ name ∉ Reserved.systemFields, item.get? name = item'.get? name) :
    item.withoutSystemFields = item'.withoutSystemFields := by
  refine OrderedMap.ext_get? fun name => ?_
  by_cases hname : name ∈ Reserved.systemFields
  · rw [get?_withoutSystemFields_of_mem hname, get?_withoutSystemFields_of_mem hname]
  · rw [get?_withoutSystemFields hname, get?_withoutSystemFields hname, h name hname]

theorem withoutSystemFields_stamped (stamp : Stamp) (container : String) (item : Item) :
    (item.stamped stamp container).withoutSystemFields = item.withoutSystemFields :=
  withoutSystemFields_congr fun _ hname => get?_stamped hname

theorem withoutSystemFields_eq_self (h : ∀ name ∈ Reserved.systemFields, item.get? name = none) :
    item.withoutSystemFields = item := by
  refine OrderedMap.ext_get? fun name => ?_
  by_cases hname : name ∈ Reserved.systemFields
  · rw [get?_withoutSystemFields_of_mem hname, h name hname]
  · rw [get?_withoutSystemFields hname]

end DocumentStore.Item
