import DocumentStore.Error
import DocumentStore.Filter.Comparable
import DocumentStore.Item
import DocumentStore.Query.Options

/-! The order of query results by the value of a field.

Null and missing values come first, and values that have no order between them count as equal.
Items that are equal keep the order they had.

Results are sorted by a library (`Sorter`), which promises a stable sort where the order is one
(`Sorting.Consistent`). Where it is not, whatever order may come out, or the sort stops the program. -/
namespace DocumentStore

/-- The order of two sides, total where that of comparisons is not. -/
def Comparable.sortOrder : Comparable → Comparable → Ordering
  | null, null => .eq
  | null, _ => .lt
  | _, null => .gt
  | a, b => (a.order? b).getD .eq

namespace Sorting

/-- The side that an item is sorted by. -/
def side (field : String) (item : Item) : Comparable :=
  ((item.lookup? field).map Comparable.ofValue).getD .null

def order (s : Sorting) (a b : Item) : Ordering :=
  match s.direction with
  | .ascending => (side s.field a).sortOrder (side s.field b)
  | .descending => (side s.field b).sortOrder (side s.field a)

/-- Among the elements no two come both before each other, and what comes before goes on. -/
structure Consistent (order : α → α → Ordering) (xs : List α) : Prop where
  swap : ∀ x ∈ xs, ∀ y ∈ xs, order y x = (order x y).swap
  trans : ∀ x ∈ xs, ∀ y ∈ xs, ∀ z ∈ xs, order x y ≠ .gt → order y z ≠ .gt → order x z ≠ .gt

/-- Puts an element behind the last one of a list that it does not come before. -/
def place (order : α → α → Ordering) (x : α) (xs : List α) : List α :=
  let before := xs.reverse.dropWhile fun y => order x y == .lt
  let behind := xs.reverse.takeWhile fun y => order x y == .lt
  before.reverse ++ x :: behind.reverse

/-- The elements placed one after the other. -/
def arrange (order : α → α → Ordering) (xs : List α) : List α :=
  xs.foldl (fun placed x => place order x placed) []

theorem place_perm (order : α → α → Ordering) (x : α) (xs : List α) :
    (place order x xs).Perm (x :: xs) := by
  unfold place
  refine List.perm_middle.trans (List.Perm.cons x ?_)
  rw [← List.reverse_append, List.takeWhile_append_dropWhile, List.reverse_reverse]

/-- Arranging keeps every element once. -/
theorem arrange_perm (order : α → α → Ordering) (xs : List α) : (arrange order xs).Perm xs := by
  unfold arrange
  suffices ∀ placed, (xs.foldl (fun placed x => place order x placed) placed).Perm (placed ++ xs) from
    this []
  induction xs with
  | nil => simp
  | cons x rest ih =>
    intro placed
    refine (ih _).trans ?_
    exact ((place_perm order x placed).append_right rest).trans List.perm_middle.symm

end Sorting

/-- A stable sort, as far as it can be relied on. It comes to what placing the elements one after the other
does where the order is consistent, which is the only way to sort them stably. Where it is not, the sort
gives back the elements in whatever order, or gives up. -/
structure Sorter where
  sort : (Item → Item → Ordering) → List Item → Option (List Item)
  perm : ∀ {order xs ys}, sort order xs = some ys → ys.Perm xs
  sorted : ∀ {order xs}, Sorting.Consistent order xs → sort order xs = some (Sorting.arrange order xs)

namespace Sorter

/-- The sort that places the elements one after the other, by whatever order. -/
def placing : Sorter where
  sort order xs := some (Sorting.arrange order xs)
  perm h := Option.some.inj h ▸ Sorting.arrange_perm _ _
  sorted _ := rfl

/-- The items in the order of a sorting, where there is one. -/
def sortBy (sorter : Sorter) (sorting : Option Sorting) (items : List Item) : Result (List Item) :=
  match sorting with
  | none => .ok items
  | some s =>
    match sorter.sort s.order items with
    | some sorted => .ok sorted
    | none => .error (.panic .disorder)

end Sorter
end DocumentStore
