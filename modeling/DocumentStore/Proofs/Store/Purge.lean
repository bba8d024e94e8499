import DocumentStore.Proofs.Store.Removal
import DocumentStore.Proofs.Store.Results

/-! Stores less the items that a filter keeps.

The entries that a filter keeps stand in key order, each under a key of its own. Those at the front can
be taken out first, which leaves the others to be found (`Store.keptEntries_removeAll`), so that all of
them are taken out in several goes as in one (`Store.purged_removeAll`). -/
namespace DocumentStore.Store

variable {container : String} {filter : Option Criteria} {s : Store} {e : ItemKey × Item}
  {es rest : List (ItemKey × Item)}

/-- The store without the items under some keys of a container. -/
def removeAll (s : Store) (container : String) (keys : List ItemKey) : Store :=
  keys.foldl (fun s key => s.remove container key) s

/-- The store without the items of a container that a filter keeps. -/
def purged (s : Store) (container : String) (filter : Option Criteria) : Store :=
  s.removeAll container ((s.keptEntries container filter).map Prod.fst)

theorem removeAll_append (s : Store) (container : String) (keys keys' : List ItemKey) :
    s.removeAll container (keys ++ keys') = (s.removeAll container keys).removeAll container keys' :=
  List.foldl_append

/-- The items under the keys are gone, and no others. -/
theorem find?_removeAll (s : Store) (container other : String) (keys : List ItemKey) (key : ItemKey) :
    (s.removeAll container keys).find? other key =
      if other = container ∧ key ∈ keys then none else s.find? other key := by
  induction keys generalizing s with
  | nil => simp [removeAll]
  | cons first keys ih =>
    show ((s.remove container first).removeAll container keys).find? other key = _
    rw [ih, find?_remove]
    by_cases hother : other = container <;> by_cases hfirst : key = first <;> simp [hother, hfirst]

/-- What is left was there, in its place. -/
theorem find?_of_removeAll {keys : List ItemKey} {other : String} {key : ItemKey} {item : Item}
    (h : (s.removeAll container keys).find? other key = some item) : s.find? other key = some item := by
  rw [find?_removeAll] at h
  split at h
  · cases h
  · exact h

theorem shelf_remove (s : Store) (container : String) (key : ItemKey) :
    (s.remove container key).shelf container = (s.shelf container).erase key := by
  rw [remove, shelf_insert, if_pos rfl]

theorem keptEntries_remove (s : Store) (container : String) (filter : Option Criteria)
    (key : ItemKey) :
    (s.remove container key).keptEntries container filter =
      (s.keptEntries container filter).filter fun e => !decide (key = e.1) := by
  unfold keptEntries
  rw [shelf_remove]
  show ((s.shelf container).entries.filter _).filter _ = _
  rw [List.filter_filter, List.filter_filter]
  exact List.filter_congr fun e _ => Bool.and_comm ..

/-- With the first of the entries taken out, the others are left: their keys are greater. -/
theorem keptEntries_remove_first (h : s.keptEntries container filter = e :: rest) :
    (s.remove container e.1).keptEntries container filter = rest := by
  have hordered : Entries.Ordered (e :: rest) := by
    rw [← h]
    exact (s.shelf container).ordered.filter _
  rw [keptEntries_remove, h, List.filter_cons_of_neg (by simp), List.filter_eq_self]
  intro e' he'
  have hlt := (List.pairwise_cons.1 hordered).1 e' he'
  have hne : e.1 ≠ e'.1 := by
    intro heq
    simp [heq] at hlt
  simpa using hne

theorem keptEntries_removeAll (h : s.keptEntries container filter = es ++ rest) :
    (s.removeAll container (es.map Prod.fst)).keptEntries container filter = rest := by
  induction es generalizing s with
  | nil => exact h
  | cons e es ih => exact ih (keptEntries_remove_first h)

/-- What is left to take out is taken out of the store that is left. -/
theorem purged_removeAll (h : s.keptEntries container filter = es ++ rest) :
    (s.removeAll container (es.map Prod.fst)).purged container filter = s.purged container filter := by
  rw [purged, keptEntries_removeAll h, purged, h, List.map_append, removeAll_append]

theorem purged_of_keptEntries_eq_nil (h : s.keptEntries container filter = []) :
    s.purged container filter = s := by
  rw [purged, h]
  rfl

theorem length_keptEntries_le_size (s : Store) (container : String) (filter : Option Criteria) :
    (s.keptEntries container filter).length ≤ s.size := by
  have hkept : (s.keptEntries container filter).length ≤ (s.shelf container).keys.length := by
    rw [OrderedMap.keys, List.length_map]
    exact List.length_filter_le ..
  exact Nat.le_trans hkept (s.length_shelf_le_size container)

end DocumentStore.Store
