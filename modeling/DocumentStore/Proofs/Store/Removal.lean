import DocumentStore.Store.Basic
import Mathlib.Data.List.Nodup

/-! Stores less some of their items.

A run of deletions in a container takes out items under keys that differ from each other, since an
item that is gone is not deleted again (`Store.Without`). So it is no longer than the container has
items, and the container has no more than the store. -/
namespace DocumentStore.Store

variable {container : String} {s s₁ s' : Store}

/-- A store without the items under keys of a container, all of which are there to begin with. -/
structure Without (container : String) (keys : List ItemKey) (s s' : Store) : Prop where
  nodup : keys.Nodup
  present : ∀ key ∈ keys, (s.find? container key).isSome
  find? : ∀ other key,
    s'.find? other key = if other = container ∧ key ∈ keys then none else s.find? other key

theorem Without.refl (container : String) (s : Store) : s.Without container [] s where
  nodup := List.nodup_nil
  present := nofun
  find? other key := by rw [if_neg fun h => List.not_mem_nil h.2]

/-- A key that is there afterwards is none of those taken out, and its item is the same. -/
theorem Without.find?_of_isSome {keys : List ItemKey} (h : s.Without container keys s') {key : ItemKey}
    (hkey : (s'.find? container key).isSome) :
    key ∉ keys ∧ s'.find? container key = s.find? container key := by
  rw [h.find?] at hkey ⊢
  by_cases hmem : key ∈ keys
  · rw [if_pos ⟨rfl, hmem⟩] at hkey
    cases hkey
  · exact ⟨hmem, if_neg fun hc => hmem hc.2⟩

theorem Without.trans {keys keys' : List ItemKey} (h : s.Without container keys s₁)
    (h' : s₁.Without container keys' s') : s.Without container (keys ++ keys') s' where
  nodup := by
    refine List.nodup_append'.2 ⟨h.nodup, h'.nodup, fun key hkey hkey' => ?_⟩
    exact (h.find?_of_isSome (h'.present key hkey')).1 hkey
  present key hkey := by
    rcases List.mem_append.1 hkey with hkey | hkey
    · exact h.present key hkey
    · have hpresent := h'.present key hkey
      rw [(h.find?_of_isSome hpresent).2] at hpresent
      exact hpresent
  find? other key := by
    rw [h'.find?, h.find?]
    by_cases hother : other = container <;> by_cases hkey : key ∈ keys <;> simp [hother, hkey]

/-- A deletion that comes out takes out one item. -/
theorem Without.of_delete {id partition : String} {item : Item}
    (h : s.delete container id partition = .ok (item, s')) :
    s.Without container [⟨partition, id⟩] s' := by
  unfold delete at h
  split at h
  · cases h
  · next hfound =>
    cases h
    refine ⟨List.nodup_singleton _, fun key hkey => ?_, fun other key => ?_⟩
    · obtain rfl := List.mem_singleton.1 hkey
      rw [hfound]
      rfl
    · simp only [find?_remove, List.mem_singleton]

/-! ### How many items there are -/

theorem mem_keys_of_find? {key : ItemKey} (h : (s.find? container key).isSome) :
    key ∈ (s.shelf container).keys := by
  obtain ⟨item, hitem⟩ := Option.isSome_iff_exists.1 h
  exact List.mem_map_of_mem (Entries.mem_of_find? hitem)

theorem length_shelf_le_size (s : Store) (container : String) :
    (s.shelf container).keys.length ≤ s.size := by
  unfold shelf size OrderedMap.get?
  cases h : Entries.find? container s.containers.entries with
  | none => exact Nat.zero_le _
  | some shelf =>
    have hmem : shelf ∈ s.containers.values := List.mem_map_of_mem (Entries.mem_of_find? h)
    have hlength : shelf.keys.length = shelf.values.length := by
      simp only [OrderedMap.keys, OrderedMap.values, List.length_map]
    show shelf.keys.length ≤ _
    rw [hlength, List.flatMap_def]
    exact (List.sublist_flatten_of_mem (List.mem_map_of_mem hmem)).length_le

/-- No more items can be taken out than the store has. -/
theorem Without.length_le_size {keys : List ItemKey} (h : s.Without container keys s') :
    keys.length ≤ s.size := by
  have hsubset : keys ⊆ (s.shelf container).keys :=
    fun key hkey => mem_keys_of_find? (h.present key hkey)
  exact Nat.le_trans (List.Nodup.length_le_of_subset h.nodup hsubset) (s.length_shelf_le_size container)

end DocumentStore.Store
