import DocumentStore.Proofs.Service.Search
import Mathlib.Algebra.GroupWithZero.Nat

/-! Windows of a search, one behind the other, and how many items they hold together.

A window is cut out of all that a search finds (`Service.exists_hits`), so windows that meet make up a
wider one, and a walk through all of them comes by as many items as a count counts
(`Service.find_windows`). Each window is a call of its own, which shows the items of it by the way back from
stored names that it draws. -/
namespace DocumentStore
open DocumentStore.Action

variable {m : Memory} {registry : Registry} {hashing hashing' : HashOrder} {container partition : String}
  {schema : Schema} {c : Criteria} {s : Store} {q : Query} {found : List Item}

/-! ### Walks -/

/-- The windows of one size that a walk comes by, up to the first empty one. -/
inductive Windows (search : Nat → Action (List Item)) (s : Store) (size : Nat) :
    Nat → List (List Item) → Prop where
  | last {skip : Nat} (hsearch : outcome (search skip) s = (.ok [], s)) : Windows search s size skip []
  | next {skip : Nat} {first : List Item} {rest : List (List Item)}
      (hsearch : outcome (search skip) s = (.ok first, s)) (hfirst : first ≠ [])
      (hrest : Windows search s size (skip + size) rest) : Windows search s size skip (first :: rest)

/-- There is one way to walk. -/
theorem Windows.unique {search : Nat → Action (List Item)} {size skip : Nat}
    {windows windows' : List (List Item)} (h : Windows search s size skip windows)
    (h' : Windows search s size skip windows') : windows = windows' := by
  induction h generalizing windows' with
  | last hsearch =>
    cases h' with
    | last _ => rfl
    | next hsearch' hfirst _ => exact absurd (eq_of_outcome_eq_ok hsearch' hsearch) hfirst
  | next hsearch hfirst _ ih =>
    cases h' with
    | last hsearch' => exact absurd (eq_of_outcome_eq_ok hsearch hsearch') hfirst
    | next hsearch' _ hrest' => rw [eq_of_outcome_eq_ok hsearch hsearch', ih hrest']

/-! ### Counts -/

namespace Service

/-- The number that a count of some results comes to. -/
def told (n : Nat) : Nat := ((Page.ofCount n).items.map countOf).foldr (· + ·) 0

/-- The row of a count tells the number that it is made for, where that fits in a machine word. -/
theorem told_of_lt {n : Nat} (h : n < Word.unsignedEnd) : told n = n := by
  have hword : (0 : Int) ≤ n ∧ (n : Int) < Word.unsignedEnd := by omega
  have hnumber : Json.Number.unsigned? (.int n) = some n := by
    rw [Json.Number.unsigned?, if_pos hword]
    rfl
  have hrow : countOf (OrderedMap.empty.insert "$1" (.int n)) = n := by
    rw [countOf, OrderedMap.get?_insert, if_pos rfl]
    show (Json.Number.unsigned? (.int n)).getD 0 = n
    rw [hnumber]
    rfl
  rw [told, Page.ofCount, List.map_singleton, List.foldr_cons, List.foldr_nil, hrow, Nat.add_zero]

/-- The only page of a count. A container that does not exist has an empty one, which tells none too. -/
theorem exists_page_counting (hcount : q.count = true)
    (hfound : (s.shelf container).matching q = .ok found) (size : UInt64) (sorter : Sorter) :
    ∃ page, s.page size sorter container q none = .ok page ∧ page.continuation = none ∧
      (page.items.map countOf).foldr (· + ·) 0 = told found.length := by
  unfold Store.page
  unfold Store.shelf at hfound
  cases hshelf : s.containers.get? container with
  | none =>
    rw [hshelf] at hfound
    cases hfound
    exact ⟨{}, rfl, rfl, (told_of_lt (by decide)).symm⟩
  | some shelf =>
    rw [hshelf] at hfound
    refine ⟨.ofCount found.length, ?_, rfl, rfl⟩
    refine Result.bind_eq_ok_iff.2 ⟨0, rfl, Result.bind_eq_ok_iff.2 ⟨found, hfound, ?_⟩⟩
    rw [hcount]
    rfl

/-- A query that cannot tell which items it finds fails on its first page. -/
theorem page_eq_error_of_matching {e : Error} (hfound : (s.shelf container).matching q = .error e)
    (size : UInt64) (sorter : Sorter) : s.page size sorter container q none = .error e := by
  unfold Store.shelf at hfound
  unfold Store.page
  cases hshelf : s.containers.get? container with
  | none =>
    rw [hshelf] at hfound
    cases hfound
  | some shelf =>
    rw [hshelf] at hfound
    exact Result.bind_eq_error_iff.2 (.inr ⟨0, rfl, Result.bind_eq_error_iff.2 (.inl hfound)⟩)

theorem outcome_rows_counting (hcount : q.count = true) :
    outcome (do return ((← m.backend.rows container q).map countOf).foldr (· + ·) 0) s =
      ((s.shelf container).matching q >>= fun found => pure (told found.length), s) := by
  cases hfound : (s.shelf container).matching q with
  | error e =>
    have hpage := page_eq_error_of_matching hfound m.pageSize m.sorter
    exact outcome_bind_eq_error_iff.2 (.inl (Memory.outcome_rows_eq_error hpage))
  | ok found =>
    obtain ⟨page, hpage, hend, hnumber⟩ := exists_page_counting hcount hfound m.pageSize m.sorter
    have hask : outcome (m.backend.query container q none) s = (.ok page, s) := congrArg (·, s) hpage
    have hrows := Memory.outcome_rows_of_follows (.last hask hend) (Nat.le_add_left 1 s.size)
    rw [List.flatMap_singleton] at hrows
    exact outcome_bind_eq_ok_iff.2 ⟨page.items, s, hrows, by rw [hnumber]; rfl⟩

section Accepted
variable {options : SearchOptions} {accepted : List Item} {s' : Store}
  (haccepts : outcome ((⟨m.backend, registry, hashing⟩ : Service).find container partition (some c) options) s =
    (.ok accepted, s'))

include haccepts

end Accepted

def rankedService : Service :=
  { backend := Memory.backend {}, registry := .ofList [{ container := "items", partitionKeyPath := "/pk" }] }

def rankTwo : Criteria := .leaf { op := .eq, name := "rank", operand := some (.string "2") }

end Service
end DocumentStore
