import DocumentStore.Proofs.Filter.Misuse
import DocumentStore.Proofs.Store.Pages

/-! Page offsets and machine words.

The offset of the next page is the sum of two machine words, the offset that a token stands for and the
number of items on a page, and a token may stand for any word. A query stops the program exactly where no word
holds the sum (`Memory.query_within_word`). There are tokens for that (`Memory.exists_past_word`), but the store
hands out none: what it hands out are offsets of results, at least a page behind the start. -/
namespace DocumentStore
open DocumentStore.Action

variable {m : Memory} {q : Query} {container : String} {s : Store} {token : Option String} {page : Page}
  {following : String}

/-- The tokens that a store hands out for the pages of a query: none for the first page, and then the token of
any page that came, whatever token that was asked for with. No list has more elements than half of the words
there are. -/
inductive Memory.Handed (m : Memory) (container : String) (q : Query) : Option String → Prop where
  | first : Handed m container q none
  | next {s : Store} {token : Option String} {page : Page} {following : String}
      (hlist : (s.shelf container).size ≤ Word.signedEnd)
      (hpage : outcome (m.backend.query container q token) s = (.ok page, s))
      (hnext : page.continuation = some following) : Handed m container q (some following)

/-! ### What does not add words -/

theorem Page.start_ne_overflow : Page.start token ≠ .error (.panic .overflow) := by
  intro h
  unfold Page.start at h
  split at h
  · cases h
  · split at h <;> cases h

theorem Shelf.matching_ne_overflow {shelf : Shelf} : shelf.matching q ≠ .error (.panic .overflow) := by
  intro h
  obtain ⟨_, hmisuse⟩ := isMisuse_of_select h
  cases hmisuse

theorem Store.results_ne_overflow {sorter : Sorter} :
    s.results sorter container q ≠ .error (.panic .overflow) := by
  intro h
  obtain hfound | ⟨found, -, h⟩ := Result.bind_eq_error_iff.1 h
  · exact Shelf.matching_ne_overflow hfound
  · obtain hsorted | ⟨_, -, hpure⟩ := Result.bind_eq_error_iff.1 h
    · cases (Sorter.of_sortBy_eq_error hsorted).1
    · cases hpure

/-! ### Where a page ends -/

namespace Store
variable {sorter : Sorter} {size : UInt64}

/-- A page with a token comes of a query for items, and the token is the offset of one of its results. -/
theorem offset_of_continuation (h : s.page size sorter container q token = .ok page)
    (hnext : page.continuation = some following) : ∃ (offset : Nat) (results : List Item),
      s.results sorter container q = .ok results ∧
      following = toString (offset + (max 1 (q.pageSize.getD size)).toNat) ∧
      offset + (max 1 (q.pageSize.getD size)).toNat < results.length := by
  cases hcount : q.count with
  | true =>
    obtain ⟨offset, hstart, h⟩ := Result.bind_eq_ok_iff.1 h
    split at h
    · cases h
      cases hnext
    · obtain ⟨found, -, h⟩ := Result.bind_eq_ok_iff.1 h
      rw [hcount] at h
      cases h
      cases hnext
  | false =>
    obtain rfl | ⟨results, offset, hresults, rfl⟩ := of_page_eq_ok hcount h
    · cases hnext
    · obtain ⟨hless, htoken⟩ := Option.ite_none_right_eq_some.1 hnext
      exact ⟨offset, results, hresults, (Option.some.inj htoken).symm, hless⟩

/-- Nothing but cutting out a page adds words: a query stops the program exactly where there is a page to cut
out of its results, and no word holds the end of it. -/
theorem page_eq_overflow_iff : s.page size sorter container q token = .error (.panic .overflow) ↔
    q.count = false ∧ (∃ shelf, s.containers.get? container = some shelf) ∧
      (∃ results, s.results sorter container q = .ok results) ∧
      ∃ offset, Page.start token = .ok offset ∧
        Word.unsignedEnd ≤ offset.toNat + (max 1 (q.pageSize.getD size)).toNat := by
  constructor
  · intro h
    have hpage := h
    unfold page at h
    obtain hstart | ⟨offset, hstart, h⟩ := Result.bind_eq_error_iff.1 h
    · exact absurd hstart Page.start_ne_overflow
    cases hshelf : s.containers.get? container with
    | none =>
      rw [hshelf] at h
      cases h
    | some shelf =>
      rw [hshelf] at h
      obtain hfound | ⟨found, -, h⟩ := Result.bind_eq_error_iff.1 h
      · exact absurd hfound Shelf.matching_ne_overflow
      cases hcount : q.count with
      | true =>
        rw [hcount] at h
        cases h
      | false =>
        rw [page_of_shelf hcount hshelf hstart] at hpage
        obtain hresults | ⟨results, hresults, hpage⟩ := Result.bind_eq_error_iff.1 hpage
        · exact absurd hresults results_ne_overflow
        rw [Page.ofResults_eq] at hpage
        split at hpage
        · cases hpage
        · next hend => exact ⟨rfl, ⟨shelf, rfl⟩, ⟨results, hresults⟩, offset, hstart, Nat.not_lt.1 hend⟩
  · intro h
    obtain ⟨hcount, ⟨shelf, hshelf⟩, ⟨results, hresults⟩, offset, hstart, hend⟩ := h
    rw [page_of_shelf hcount hshelf hstart, hresults]
    exact (Page.ofResults_eq ..).trans (if_neg (Nat.not_lt.2 hend))

end Store

namespace Memory

/-- The offset of a result and the length of a page are both less than half of the words there are. -/
theorem within_word_next (hlist : (s.shelf container).size ≤ Word.signedEnd)
    (hpage : outcome (m.backend.query container q token) s = (.ok page, s))
    (hnext : page.continuation = some following) : ∃ offset, Page.start (some following) = .ok offset ∧
      offset.toNat < Word.signedEnd ∧ offset.toNat + (m.pageLength q).toNat < Word.unsignedEnd := by
  have hread : s.page m.pageSize m.sorter container q token = .ok page := congrArg Prod.fst hpage
  obtain ⟨offset, results, hresults, rfl, hless⟩ := Store.offset_of_continuation hread hnext
  have hresult : offset + (m.pageLength q).toNat < Word.signedEnd :=
    calc offset + (m.pageLength q).toNat < results.length := hless
      _ ≤ (s.shelf container).size := Store.length_results_le hresults
      _ ≤ Word.signedEnd := hlist
  have hhalf : Word.signedEnd + Word.signedEnd = Word.unsignedEnd := rfl
  obtain ⟨next, hstart, hnext⟩ := Page.start_toString (Nat.lt_trans hresult (by decide))
  exact ⟨next, hstart, hnext ▸ hresult, by omega⟩

/-- A token that the store has handed out is an offset with a page behind it. -/
theorem Handed.within_word (h : m.Handed container q token) : ∃ offset, Page.start token = .ok offset ∧
    offset.toNat < Word.signedEnd ∧ offset.toNat + (m.pageLength q).toNat < Word.unsignedEnd := by
  cases h with
  | first =>
    refine ⟨0, rfl, by decide, ?_⟩
    rw [UInt64.toNat_zero, Nat.zero_add]
    exact (m.pageLength q).toNat_lt
  | next hlist hpage hnext => exact within_word_next hlist hpage hnext

/-- **A token that stands for no word is refused. The others stop the program exactly where a page is to be cut
out and no word holds its end. Tokens that the store has handed out are offsets of results and never do,
whatever the container holds by then.** -/
theorem query_within_word (m : Memory) (container : String) (q : Query) :
    (∀ s t, Page.offset? t = none → outcome (m.backend.query container q (some t)) s =
      (.error (.backend (some 400) ("invalid continuation token '" ++ t ++ "'")), s)) ∧
    (∀ s token, outcome (m.backend.query container q token) s = (.error (.panic .overflow), s) ↔
      q.count = false ∧ (∃ shelf, s.containers.get? container = some shelf) ∧
        (∃ results, s.results m.sorter container q = .ok results) ∧
        ∃ offset, Page.start token = .ok offset ∧
          Word.unsignedEnd ≤ offset.toNat + (m.pageLength q).toNat) ∧
    ∀ token, m.Handed container q token →
      (∃ offset, Page.start token = .ok offset ∧ offset.toNat < Word.signedEnd ∧
        offset.toNat + (m.pageLength q).toNat < Word.unsignedEnd) ∧
      ∀ s, (outcome (m.backend.query container q token) s).1 ≠ .error (.panic .overflow) := by
  refine ⟨fun s t ht => ?_, fun s token => ?_, fun token h => ⟨h.within_word, fun s hpage => ?_⟩⟩
  · show (s.page m.pageSize m.sorter container q (some t), s) = _
    rw [Store.page, Page.start, ht]
    rfl
  · show (s.page m.pageSize m.sorter container q token, s) = _ ↔ _
    rw [Prod.mk.injEq, and_iff_left rfl]
    exact Store.page_eq_overflow_iff
  · obtain ⟨-, -, -, offset, hstart, hend⟩ := Store.page_eq_overflow_iff.1 hpage
    obtain ⟨offset', hstart', -, hfits⟩ := h.within_word
    cases hstart.symm.trans hstart'
    exact absurd hfits (Nat.not_lt.2 hend)

/-- Two items of a partition. -/
def twoItems : Store :=
  (Store.put {} "items" ⟨"p", "a"⟩ (.ofList [("id", .str "a")])).put "items" ⟨"p", "b"⟩
    (.ofList [("id", .str "b")])

/-- A query for items one by one. -/
def oneByOne : Query := { pageSize := some 1 }

theorem query_within_word_second :
    outcome (({} : Memory).backend.query "items" oneByOne (some "x")) twoItems =
      (.error (.backend (some 400) "invalid continuation token 'x'"), twoItems) ∧
    ∃ offset, Page.start (some "1") = .ok offset ∧ offset.toNat < Word.signedEnd ∧
      offset.toNat + (({} : Memory).pageLength oneByOne).toNat < Word.unsignedEnd := by
  have hpage : outcome (({} : Memory).backend.query "items" oneByOne none) twoItems =
      (.ok { items := [.ofList [("id", .str "a")]], continuation := some "1" }, twoItems) := rfl
  obtain ⟨hrefused, -, hhanded⟩ := query_within_word {} "items" oneByOne
  exact ⟨hrefused twoItems "x" (by decide +kernel), (hhanded (some "1") (.next (by decide) hpage rfl)).1⟩

/-- The greatest word is a token that is not refused, and a page of one item behind it would end at the first
integer that is no word. -/
theorem exists_past_word :
    outcome (({} : Memory).backend.query "items" oneByOne (some "18446744073709551615")) twoItems =
      (.error (.panic .overflow), twoItems) ∧
    ∃ offset, Page.start (some "18446744073709551615") = .ok offset ∧
      ¬offset.toNat + (({} : Memory).pageLength oneByOne).toNat < Word.unsignedEnd :=
  ⟨rfl, _, rfl, by decide⟩

end Memory
end DocumentStore
