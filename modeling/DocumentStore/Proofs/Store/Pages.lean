import DocumentStore.Backend.Memory
import DocumentStore.Proofs.Action.Effects
import DocumentStore.Proofs.Store.Removal
import DocumentStore.Proofs.Store.Results
import DocumentStore.Proofs.Store.Sorting

/-! The pages of a query, one after the other.

A page's token is the offset of the next one, in decimal digits, and reads as that offset again
(`Page.offset?_toString`). So the pages that tokens lead to hold the results from an offset on, one after
the other, and all but the last are full (`Page.exists_follows_ofResults`). No list has more elements than
half of the words there are, so the end of a page that a token leads to is a word as well. A backend in memory
collects the pages of all results that a query comes to (`Memory.outcome_rows`). -/
namespace DocumentStore
open DocumentStore.Action

variable {m : Memory} {q : Query} {container : String} {s : Store}

/-- The pages that come when each is asked for with the token of the one before it, up to the first
without a token. No page asked for changes the store. -/
inductive Follows (ask : Option String → Action Page) (s : Store) : Option String → List Page → Prop where
  | last {token : Option String} {page : Page} (hpage : outcome (ask token) s = (.ok page, s))
      (hend : page.continuation = none) : Follows ask s token [page]
  | next {token : Option String} {page : Page} {following : String} {rest : List Page}
      (hpage : outcome (ask token) s = (.ok page, s)) (hnext : page.continuation = some following)
      (hrest : Follows ask s (some following) rest) : Follows ask s token (page :: rest)

/-- The pages hold the items one after the other, and all but the last have as many as they may. -/
structure Page.Hold (size : Nat) (items : List Item) (pages : List Page) : Prop where
  items : pages.flatMap Page.items = items
  full : ∀ page ∈ pages.dropLast, page.items.length = size

namespace Follows
variable {ask : Option String → Action Page} {token : Option String} {pages pages' : List Page}

theorem ne_nil (h : Follows ask s token pages) : pages ≠ [] := by
  cases h <;> exact List.cons_ne_nil _ _

/-- There is one way to follow the tokens. -/
theorem unique (h : Follows ask s token pages) (h' : Follows ask s token pages') : pages = pages' := by
  induction h generalizing pages' with
  | last hpage hend =>
    cases h' with
    | last hpage' _ => rw [eq_of_outcome_eq_ok hpage hpage']
    | next hpage' hnext _ =>
      rw [eq_of_outcome_eq_ok hpage hpage', hnext] at hend
      cases hend
  | next hpage hnext _ ih =>
    cases h' with
    | last hpage' hend =>
      rw [eq_of_outcome_eq_ok hpage hpage', hend] at hnext
      cases hnext
    | next hpage' hnext' hrest' =>
      obtain rfl := eq_of_outcome_eq_ok hpage hpage'
      obtain rfl := Option.some.inj (hnext.symm.trans hnext')
      rw [ih hrest']

/-- Asking page by page yields the pages, where no fewer may come. -/
theorem outcome_pagesFrom (h : Follows ask s token pages) {most : Nat} (hmost : pages.length ≤ most) :
    outcome (pagesFrom ask most token) s = (.ok pages, s) := by
  induction h generalizing most with
  | last hpage hend =>
    obtain ⟨most, rfl⟩ := Nat.exists_eq_add_of_le' hmost
    refine outcome_bind_eq_ok_iff.2 ⟨_, s, hpage, ?_⟩
    rw [hend]
    rfl
  | next hpage hnext _ ih =>
    obtain ⟨most, rfl⟩ := Nat.exists_eq_add_of_le' (Nat.le_trans (Nat.le_add_left 1 _) hmost)
    refine outcome_bind_eq_ok_iff.2 ⟨_, s, hpage, ?_⟩
    rw [hnext]
    exact outcome_bind_eq_ok_iff.2 ⟨_, s, ih (Nat.le_of_succ_le_succ hmost), rfl⟩

end Follows

namespace Page

/-- As every page but the last has an item, there are no more pages than items and one. -/
theorem Hold.length_le {size : Nat} {items : List Item} {pages : List Page} (hsize : 0 < size)
    (h : Hold size items pages) : pages.length ≤ items.length + 1 := by
  obtain ⟨rfl, hfull⟩ := h
  induction pages with
  | nil => exact Nat.zero_le _
  | cons page rest ih =>
    cases rest with
    | nil => exact Nat.le_add_left 1 _
    | cons next rest =>
      rw [List.dropLast_cons_of_ne_nil (List.cons_ne_nil _ _), List.forall_mem_cons] at hfull
      have hrest := ih hfull.2
      rw [List.flatMap_cons, List.length_append, hfull.1, List.length_cons]
      omega

/-! ### Tokens -/

/-- The token of an offset stands for the offset. -/
theorem offset?_toString {n : Nat} (h : n < Word.unsignedEnd) : offset? (toString n) = some (.ofNat n) := by
  have hdigits : (toString n).toList = Nat.toDigits 10 n := by
    rw [Nat.toString_eq_repr, Nat.toList_repr]
  have hdigit : ∀ c ∈ Nat.toDigits 10 n, c.isDigit = true :=
    fun c hc => Nat.isDigit_of_mem_toDigits (by decide) (by decide) hc
  have hvalue : Text.Scan.digitsValue (Nat.toDigits 10 n) = n :=
    Nat.ofDigitChars_toDigits (by decide) (by decide)
  have hsome : ((Nat.toDigits 10 n).isEmpty || !(Nat.toDigits 10 n).all Char.isDigit) = false := by
    rw [List.all_eq_true.2 hdigit, List.isEmpty_eq_false_iff.2 Nat.toDigits_ne_nil]
    rfl
  unfold offset?
  rw [hdigits]
  split
  · next hplus => exact absurd (hdigit '+' (by rw [hplus]; exact List.mem_cons_self)) (by decide)
  · show (if _ = true then none else if _ < _ then some (UInt64.ofNat _) else none) = _
    rw [hsome, if_neg Bool.false_ne_true, hvalue, if_pos h]

/-- The token that a page leads on by stands for the offset it was made of. -/
theorem start_toString {n : Nat} (h : n < Word.unsignedEnd) :
    ∃ offset, start (some (toString n)) = .ok offset ∧ offset.toNat = n := by
  refine ⟨.ofNat n, ?_, UInt64.toNat_ofNat_of_lt h⟩
  rw [start, offset?_toString h]

/-! ### Results page by page -/

/-- **The pages that tokens lead to hold the results from an offset on.** The invariant is that the page asked
for ends within the range of words: a token is only handed out for an offset within a list, and then a page is
no longer than the list. -/
theorem exists_follows_ofResults {results : List Item} {fields : List String} {size : UInt64}
    {ask : Option String → Action Page} (hsize : 0 < size.toNat) (hlist : results.length ≤ Word.signedEnd)
    (hask : ∀ token offset, start token = .ok offset → offset.toNat + size.toNat < Word.unsignedEnd →
      outcome (ask token) s = (.ok (slice results fields size.toNat offset.toNat), s))
    {token : Option String} {offset : UInt64} (hstart : start token = .ok offset)
    (hfits : offset.toNat + size.toNat < Word.unsignedEnd) :
    ∃ pages, Follows ask s token pages ∧
      Hold size.toNat ((results.drop offset.toNat).map (·.project fields)) pages := by
  induction hleft : results.length - offset.toNat using Nat.strongRecOn generalizing token offset with
  | ind left ih =>
    by_cases hnext : offset.toNat + size.toNat < results.length
    · have hhalf : Word.signedEnd + Word.signedEnd = Word.unsignedEnd := rfl
      obtain ⟨next, hstart', hoffset'⟩ := start_toString hfits
      have hfits' : next.toNat + size.toNat < Word.unsignedEnd := by omega
      obtain ⟨rest, hrest, hhold⟩ := ih _ (by omega) hstart' hfits' rfl
      refine ⟨_, .next (hask token offset hstart hfits) (if_pos hnext) hrest, ?_, ?_⟩
      · rw [List.flatMap_cons, hhold.items, hoffset', ← List.drop_drop, slice, ← List.map_append,
          List.take_append_drop]
      · rw [List.dropLast_cons_of_ne_nil hrest.ne_nil, List.forall_mem_cons]
        refine ⟨?_, hhold.full⟩
        rw [slice, List.length_map, List.length_take, List.length_drop]
        omega
    · refine ⟨_, .last (hask token offset hstart hfits) (if_neg hnext), ?_,
        fun _ hpage => absurd hpage List.not_mem_nil⟩
      have hall : (results.drop offset.toNat).length ≤ size.toNat := by
        rw [List.length_drop]
        omega
      rw [List.flatMap_singleton, slice, List.take_of_length_le hall]

end Page

/-! ### The results of a query -/

/-- The query asks for the partition of an entry, and its filter keeps the item. -/
def Query.finds (q : Query) (e : ItemKey × Item) : Bool :=
  q.partitionValue.all (· == e.1.partition) && kept q.filter e.2

theorem Shelf.matching_eq_select (shelf : Shelf) (q : Query) :
    shelf.matching q = select q.filter
      ((shelf.entries.filter fun e => q.partitionValue.all (· == e.1.partition)).map Prod.snd) := by
  rw [matching, ← List.filterMap_eq_map, List.filterMap_filter]
  rfl

theorem Shelf.matching_eq_filter {shelf : Shelf} {found : List Item} (h : shelf.matching q = .ok found) :
    found = (shelf.entries.filter q.finds).map Prod.snd := by
  rw [matching_eq_select] at h
  rw [select_eq_filter h, List.filter_map, List.filter_filter]
  simp only [Bool.and_comm]
  rfl

theorem sublist_window (skip limit : Option Nat) (items : List α) :
    (window skip limit items).Sublist items := by
  cases limit with
  | none => exact List.drop_sublist ..
  | some n => exact (List.take_sublist ..).trans (List.drop_sublist ..)

section Arranged
variable {sorter : Sorter} {found results : List Item}

/-- The results of a query are its window of the items it finds, sorted. -/
theorem Query.arranged_eq_ok_iff : q.arranged sorter found = .ok results ↔
    ∃ sorted, sorter.sortBy q.sorting found = .ok sorted ∧ results = window q.skip q.limit sorted := by
  rw [Query.arranged, Result.bind_eq_ok_iff]
  exact exists_congr fun sorted => and_congr_right' ⟨fun h => (Except.ok.inj h).symm, fun h => h ▸ rfl⟩

theorem Query.length_le_of_arranged (h : q.arranged sorter found = .ok results) :
    results.length ≤ found.length := by
  obtain ⟨sorted, hsorted, rfl⟩ := Query.arranged_eq_ok_iff.1 h
  rw [← (Sorter.perm_of_sortBy hsorted).length_eq]
  exact (sublist_window ..).length_le

theorem Query.subset_of_arranged (h : q.arranged sorter found = .ok results) : results ⊆ found := by
  obtain ⟨sorted, hsorted, rfl⟩ := Query.arranged_eq_ok_iff.1 h
  exact List.Subset.trans (sublist_window ..).subset (Sorter.perm_of_sortBy hsorted).subset

theorem Query.arranged_nil (q : Query) (sorter : Sorter) : q.arranged sorter [] = .ok [] := by
  have hsorted : sorter.sortBy q.sorting [] = .ok [] := by
    cases q.sorting with
    | none => rfl
    | some sorting => exact Sorter.sortBy_of_consistent ⟨nofun, nofun⟩
  exact Query.arranged_eq_ok_iff.2 ⟨[], hsorted, (List.sublist_nil.1 (sublist_window ..)).symm⟩

end Arranged

namespace Store

/-- The results of a query, which its pages are cut out of. -/
def results (sorter : Sorter) (container : String) (q : Query) (s : Store) : Result (List Item) := do
  q.arranged sorter (← (s.shelf container).matching q)

section Page
variable {sorter : Sorter} {results : List Item} {size offset : UInt64} {token : Option String}

theorem page_of_shelf {shelf : Shelf} (hcount : q.count = false)
    (hshelf : s.containers.get? container = some shelf) (hstart : Page.start token = .ok offset) :
    s.page size sorter container q token = s.results sorter container q >>= fun results =>
      Page.ofResults results q.projection (max 1 (q.pageSize.getD size)) offset := by
  unfold page Store.results Store.shelf
  rw [hstart, hshelf, hcount, bind_assoc]
  rfl

theorem results_of_no_shelf (hshelf : s.containers.get? container = none) :
    s.results sorter container q = .ok [] := by
  unfold Store.results Store.shelf
  rw [hshelf]
  exact q.arranged_nil sorter

/-- The pages of a query are slices of its results. -/
theorem page_eq_slice (hcount : q.count = false) (hresults : s.results sorter container q = .ok results)
    (hstart : Page.start token = .ok offset)
    (hfits : offset.toNat + (max 1 (q.pageSize.getD size)).toNat < Word.unsignedEnd) :
    s.page size sorter container q token =
      .ok (.slice results q.projection (max 1 (q.pageSize.getD size)).toNat offset.toNat) := by
  cases hshelf : s.containers.get? container with
  | none =>
    obtain rfl := Except.ok.inj ((results_of_no_shelf hshelf).symm.trans hresults)
    unfold page
    rw [hstart, hshelf]
    simp [Page.slice, pure, Except.pure, bind, Except.bind]
  | some shelf =>
    rw [page_of_shelf hcount hshelf hstart, hresults]
    exact (Page.ofResults_eq ..).trans (if_pos hfits)

/-- A page of a query for items is empty, or a slice of its results. -/
theorem of_page_eq_ok {page : Page} (hcount : q.count = false)
    (h : s.page size sorter container q token = .ok page) : page = {} ∨ ∃ results offset,
      s.results sorter container q = .ok results ∧
      page = .slice results q.projection (max 1 (q.pageSize.getD size)).toNat offset := by
  obtain ⟨offset, hstart, -⟩ := Result.bind_eq_ok_iff.1 h
  cases hshelf : s.containers.get? container with
  | none =>
    unfold Store.page at h
    rw [hstart, hshelf] at h
    cases h
    exact .inl rfl
  | some shelf =>
    rw [page_of_shelf hcount hshelf hstart] at h
    obtain ⟨results, hresults, h⟩ := Result.bind_eq_ok_iff.1 h
    rw [Page.ofResults_eq] at h
    split at h
    · cases h
      exact .inr ⟨results, offset.toNat, hresults, rfl⟩
    · cases h

theorem page_eq_error {e : Error} (hcount : q.count = false)
    (hresults : s.results sorter container q = .error e) (size : UInt64) :
    s.page size sorter container q none = .error e := by
  cases hshelf : s.containers.get? container with
  | none =>
    rw [results_of_no_shelf hshelf] at hresults
    cases hresults
  | some shelf =>
    rw [page_of_shelf hcount hshelf rfl, hresults]
    rfl

end Page

theorem length_matching_le {found : List Item} (hfound : (s.shelf container).matching q = .ok found) :
    found.length ≤ (s.shelf container).size := by
  rw [Shelf.matching_eq_filter hfound, List.length_map]
  exact List.length_filter_le ..

theorem length_results_le {sorter : Sorter} {results : List Item}
    (h : s.results sorter container q = .ok results) : results.length ≤ (s.shelf container).size := by
  obtain ⟨found, hfound, harranged⟩ := Result.bind_eq_ok_iff.1 h
  exact (Query.length_le_of_arranged harranged).trans (length_matching_le hfound)

/-- What a query comes to is stored. -/
theorem exists_find?_of_mem_results {sorter : Sorter} {results : List Item} {item : Item}
    (h : s.results sorter container q = .ok results) (hitem : item ∈ results) :
    ∃ key, s.find? container key = some item := by
  obtain ⟨found, hfound, harranged⟩ := Result.bind_eq_ok_iff.1 h
  have hmem := Query.subset_of_arranged harranged hitem
  rw [Shelf.matching_eq_filter hfound, List.mem_map] at hmem
  obtain ⟨e, he, rfl⟩ := hmem
  exact ⟨e.1, (s.shelf container).ordered.find?_of_mem (List.mem_of_mem_filter he)⟩

theorem size_shelf_le_size (s : Store) (container : String) : (s.shelf container).size ≤ s.size := by
  have h := s.length_shelf_le_size container
  rwa [OrderedMap.keys, List.length_map] at h

end Store

namespace Memory

/-- How many items a page of the query may have. -/
def pageLength (m : Memory) (q : Query) : UInt64 := max 1 (q.pageSize.getD m.pageSize)

theorem pageLength_pos (m : Memory) (q : Query) : 0 < (m.pageLength q).toNat := by
  rw [pageLength, Word.toNat_max]
  exact Nat.lt_of_lt_of_le Nat.zero_lt_one (Nat.le_max_left ..)

/-- The results of a query come on pages that are all full but the last, no more of them than a backend
in memory looks for. -/
theorem exists_follows_query {results : List Item} (hcount : q.count = false)
    (hresults : s.results m.sorter container q = .ok results) (hlist : results.length ≤ Word.signedEnd) :
    ∃ pages, Follows (m.backend.query container q) s none pages ∧
      Page.Hold (m.pageLength q).toNat (results.map (·.project q.projection)) pages ∧
      pages.length ≤ s.size + 1 := by
  have hask : ∀ token offset, Page.start token = .ok offset →
      offset.toNat + (m.pageLength q).toNat < Word.unsignedEnd →
      outcome (m.backend.query container q token) s =
        (.ok (.slice results q.projection (m.pageLength q).toNat offset.toNat), s) := by
    intro token offset hstart hfits
    exact congrArg (·, s) (Store.page_eq_slice hcount hresults hstart hfits)
  have hfirst : (0 : UInt64).toNat + (m.pageLength q).toNat < Word.unsignedEnd := by
    rw [UInt64.toNat_zero, Nat.zero_add]
    exact (m.pageLength q).toNat_lt
  have hstart : Page.start none = .ok 0 := rfl
  have hsize := m.pageLength_pos q
  obtain ⟨pages, hfollows, hhold⟩ := Page.exists_follows_ofResults hsize hlist hask hstart hfirst
  refine ⟨pages, hfollows, hhold, Nat.le_trans (hhold.length_le hsize) (Nat.succ_le_succ ?_)⟩
  rw [UInt64.toNat_zero, List.drop_zero, List.length_map]
  exact (Store.length_results_le hresults).trans (s.size_shelf_le_size container)

theorem outcome_rows_of_follows {pages : List Page}
    (hfollows : Follows (m.backend.query container q) s none pages) (hmost : pages.length ≤ s.size + 1) :
    outcome (m.backend.rows container q) s = (.ok (pages.flatMap Page.items), s) :=
  outcome_bind_eq_ok_iff.2 ⟨pages, s,
    outcome_bind_eq_ok_iff.2 ⟨s, s, rfl, hfollows.outcome_pagesFrom hmost⟩, rfl⟩

/-- Where the first page fails, so do the rows. -/
theorem outcome_rows_eq_error {e : Error} (hpage : s.page m.pageSize m.sorter container q none = .error e) :
    outcome (m.backend.rows container q) s = (.error e, s) := by
  have hquery : outcome (m.backend.query container q none) s = (.error e, s) := congrArg (·, s) hpage
  have hpages : outcome (m.backend.pages container q) s = (.error e, s) :=
    outcome_bind_eq_error_iff.2 (.inr ⟨s, s, rfl, outcome_bind_eq_error_iff.2 (.inl hquery)⟩)
  exact outcome_bind_eq_error_iff.2 (.inl hpages)

/-- The rows of a query are its results, cut down to the fields it asks for. -/
theorem outcome_rows (hcount : q.count = false) (hlist : ∀ results,
      s.results m.sorter container q = .ok results → results.length ≤ Word.signedEnd) :
    outcome (m.backend.rows container q) s =
      (List.map (·.project q.projection) <$> s.results m.sorter container q, s) := by
  cases hresults : s.results m.sorter container q with
  | error e => exact outcome_rows_eq_error (Store.page_eq_error hcount hresults m.pageSize)
  | ok results =>
    obtain ⟨pages, hfollows, hhold, hmost⟩ :=
      exists_follows_query (m := m) hcount hresults (hlist results hresults)
    rw [outcome_rows_of_follows hfollows hmost, hhold.items]
    rfl

end Memory
end DocumentStore
