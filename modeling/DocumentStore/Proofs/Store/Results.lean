import DocumentStore.Proofs.Result
import DocumentStore.Store.Results

/-! What a page holds, and the first page of a query that asks for all that its filter keeps.

A page is a slice of the results, where a word holds the offset of its end (`Page.ofResults_eq`). The first
page always is one. So the first page of a query for all that its filter keeps holds the first of these items,
in key order, as many as it has room for (`Store.items_page`). -/
namespace DocumentStore

namespace Page

/-- The page of so many items from an offset on, its end calculated in numbers of any size. -/
def slice (results : List Item) (fields : List String) (size offset : Nat) : Page where
  items := ((results.drop offset).take size).map (·.project fields)
  continuation := if offset + size < results.length then some (toString (offset + size)) else none

/-- **A page is a slice of the results, unless no word holds its end.** -/
theorem ofResults_eq (results : List Item) (fields : List String) (size offset : UInt64) :
    ofResults results fields size offset =
      if offset.toNat + size.toNat < Word.unsignedEnd
        then .ok (slice results fields size.toNat offset.toNat) else .error (.panic .overflow) := by
  unfold ofResults
  cases hsum : Word.sum? offset size with
  | none =>
    rw [if_neg (Nat.not_lt.2 (Word.sum?_eq_none_iff.1 hsum))]
  | some next =>
    have hnext := Word.sum?_eq_some_iff.1 hsum
    rw [if_pos (hnext ▸ next.toNat_lt), slice, ← hnext]
    rfl

/-- The first page ends within the range of words. -/
theorem ofResults_zero (results : List Item) (fields : List String) (size : UInt64) :
    ofResults results fields size 0 = .ok (slice results fields size.toNat 0) := by
  have hfits : (0 : UInt64).toNat + size.toNat < Word.unsignedEnd := by
    rw [UInt64.toNat_zero, Nat.zero_add]
    exact size.toNat_lt
  rw [ofResults_eq, if_pos hfits, UInt64.toNat_zero]

end Page

/-- A filter keeps an item, and does not fail on it. -/
def kept (filter : Option Criteria) (item : Item) : Bool :=
  match keeps filter item with
  | .ok b => b
  | .error _ => false

theorem kept_of_keeps {filter : Option Criteria} {item : Item} {b : Bool}
    (h : keeps filter item = .ok b) : kept filter item = b := by
  rw [kept, h]

theorem select_eq_filter {filter : Option Criteria} {items found : List Item}
    (h : select filter items = .ok found) : found = items.filter (kept filter) := by
  induction items generalizing found with
  | nil =>
    cases h
    rfl
  | cons item rest ih =>
    obtain ⟨b, hb, h⟩ := Result.bind_eq_ok_iff.1 h
    obtain ⟨others, hothers, h⟩ := Result.bind_eq_ok_iff.1 h
    cases h
    rw [List.filter_cons, kept_of_keeps hb, ih hothers]

/-- The query asks for all items of a container that its filter keeps, in key order. -/
structure Query.Exhaustive (q : Query) : Prop where
  partition : q.partitionValue = none
  sorting : q.sorting = none
  skip : q.skip = none
  limit : q.limit = none
  count : q.count = false

namespace Store

/-- The entries of a container that a filter keeps, in key order. -/
def keptEntries (s : Store) (container : String) (filter : Option Criteria) : List (ItemKey × Item) :=
  (s.shelf container).entries.filter fun e => kept filter e.2

theorem find?_of_mem_keptEntries {s : Store} {container : String} {filter : Option Criteria}
    {e : ItemKey × Item} (h : e ∈ s.keptEntries container filter) :
    s.find? container e.1 = some e.2 ∧ kept filter e.2 = true := by
  obtain ⟨hmem, hkept⟩ := List.mem_filter.1 h
  exact ⟨(s.shelf container).ordered.find?_of_mem hmem, hkept⟩

theorem mem_keptEntries_of_find? {s : Store} {container : String} {filter : Option Criteria}
    {key : ItemKey} {item : Item} (h : s.find? container key = some item)
    (hkept : kept filter item = true) : (key, item) ∈ s.keptEntries container filter :=
  List.mem_filter.2 ⟨Entries.mem_of_find? h, hkept⟩

/-- The first page of such a query is cut out of the items found. -/
theorem page_of_exhaustive {q : Query} (hq : q.Exhaustive) {shelf : Shelf} {found : List Item}
    {container : String} {s : Store} (hshelf : s.containers.get? container = some shelf)
    (hfound : shelf.matching q = .ok found) (size : UInt64) (sorter : Sorter) :
    Store.page size sorter container q none s =
      .ok (.slice found q.projection (max 1 (q.pageSize.getD size)).toNat 0) := by
  have harranged : q.arranged sorter found = .ok found := by
    rw [Query.arranged, hq.sorting, hq.skip, hq.limit]
    rfl
  rw [← Page.ofResults_zero, Store.page, Page.start, hshelf]
  show (shelf.matching q >>= _) = _
  rw [hfound]
  show (if q.count then _ else q.arranged sorter found >>= _) = _
  rw [hq.count, harranged]
  rfl

theorem items_page {q : Query} (hq : q.Exhaustive) {size : UInt64} {sorter : Sorter} {container : String}
    {s : Store} {page : Page} (h : Store.page size sorter container q none s = .ok page) :
    page.items = ((s.keptEntries container q.filter).take (max 1 (q.pageSize.getD size)).toNat).map
      fun e => e.2.project q.projection := by
  unfold keptEntries shelf
  cases hshelf : s.containers.get? container with
  | none =>
    rw [Store.page, hshelf] at h
    cases h
    show [] = List.map _ (List.take _ [])
    rw [List.take_nil, List.map_nil]
  | some shelf =>
    obtain ⟨found, hfound⟩ : ∃ found, shelf.matching q = .ok found := by
      rw [Store.page, hshelf] at h
      obtain ⟨_, -, h⟩ := Result.bind_eq_ok_iff.1 h
      obtain ⟨found, hfound, -⟩ := Result.bind_eq_ok_iff.1 h
      exact ⟨found, hfound⟩
    rw [page_of_exhaustive hq hshelf hfound] at h
    cases h
    have hmatching : shelf.matching q = select q.filter (shelf.entries.map Prod.snd) := by
      rw [Shelf.matching, hq.partition, ← List.filterMap_eq_map (f := Prod.snd)]
      rfl
    rw [hmatching] at hfound
    rw [select_eq_filter hfound]
    simp only [Page.slice, List.drop_zero, Option.getD_some, List.filter_map, List.map_take, List.map_map]
    rfl

end Store
end DocumentStore
