import DocumentStore.Proofs.Filter.Doubles
import DocumentStore.Store.Sorting
import Mathlib.Data.List.Induction
import Mathlib.Data.List.TakeWhile

/-! Sorting by an order that elements may be equal in.

Elements are placed one after the other, each behind the last one that it does not come before. As long
as the order is consistent on the elements, those placed are sorted at every step, and the equal ones
among them stand as they came (`Sorting.stablySorted_arrange`). The order by a field is consistent on items
whose values of the field are of one kind, or null (`Sorting.consistent_order`). -/
namespace DocumentStore

namespace Sorting
variable {α : Type} {order : α → α → Ordering} {x : α} {xs ys : List α}

/-- The second list has the elements of the first in order, and those equal to an element as they stand
in the first. -/
structure StablySorted (order : α → α → Ordering) (xs ys : List α) : Prop where
  perm : ys.Perm xs
  sorted : ys.Pairwise fun a b => order a b ≠ .gt
  stable : ∀ x ∈ xs, ys.filter (fun y => order x y = .eq) = xs.filter fun y => order x y = .eq

theorem Consistent.of_subset (h : Consistent order ys) (hsubset : xs ⊆ ys) : Consistent order xs where
  swap x hx y hy := h.swap x (hsubset hx) y (hsubset hy)
  trans x hx y hy z hz := h.trans x (hsubset hx) y (hsubset hy) z (hsubset hz)

/-- The element is placed between those that it does not come before and those that it does. -/
theorem exists_place_eq (order : α → α → Ordering) (x : α) (xs : List α) : ∃ before behind,
    xs = before ++ behind ∧ place order x xs = before ++ x :: behind ∧
      (∀ y, before.getLast? = some y → order x y ≠ .lt) ∧ ∀ y ∈ behind, order x y = .lt := by
  refine ⟨(xs.reverse.dropWhile fun y => order x y == .lt).reverse,
    (xs.reverse.takeWhile fun y => order x y == .lt).reverse, ?_, rfl, ?_, ?_⟩
  · rw [← List.reverse_append, List.takeWhile_append_dropWhile, List.reverse_reverse]
  · intro y hy
    rw [List.getLast?_reverse] at hy
    have hstop := List.head?_dropWhile_not (fun y => order x y == .lt) xs.reverse
    rw [hy] at hstop
    simpa using hstop
  · intro y hy
    simpa using List.mem_takeWhile_imp (List.mem_reverse.1 hy)

/-- An element placed among sorted ones leaves them sorted. -/
theorem pairwise_place (h : Consistent order (x :: xs))
    (hsorted : xs.Pairwise fun a b => order a b ≠ .gt) :
    (place order x xs).Pairwise fun a b => order a b ≠ .gt := by
  obtain ⟨before, behind, rfl, hplace, hlast, hbehind⟩ := exists_place_eq order x xs
  obtain ⟨hbefore, hrest, hacross⟩ := List.pairwise_append.1 hsorted
  have hmem : ∀ y ∈ before ++ behind, y ∈ x :: (before ++ behind) := fun y => List.mem_cons_of_mem x
  have hx : x ∈ x :: (before ++ behind) := List.mem_cons_self
  have hxlast : ∀ a ∈ before, order a x ≠ .gt := by
    obtain rfl | ⟨others, last, rfl⟩ := before.eq_nil_or_concat
    · exact nofun
    · rw [List.concat_eq_append] at h hmem hx hlast hbefore ⊢
      have hlastmem : last ∈ x :: (others ++ [last] ++ behind) := hmem last (by simp)
      have hlastx : order last x ≠ .gt := by
        rw [h.swap x hx last hlastmem, ne_eq, Ordering.swap_eq_gt]
        exact hlast last List.getLast?_concat
      intro a ha
      obtain ha | ha := List.mem_append.1 ha
      · have halast := (List.pairwise_append.1 hbefore).2.2 a ha last List.mem_cons_self
        exact h.trans a (hmem a (by simp [ha])) last hlastmem x hx halast hlastx
      · rw [List.mem_singleton.1 ha]
        exact hlastx
  rw [hplace]
  refine List.pairwise_append.2 ⟨hbefore, List.pairwise_cons.2 ⟨?_, hrest⟩, fun a ha => ?_⟩
  · intro b hb
    rw [hbehind b hb]
    decide
  · exact List.forall_mem_cons.2 ⟨hxlast a ha, hacross a ha⟩

/-- Of those equal to an element, the one placed comes last. -/
theorem filter_place {a : α} (h : Consistent order (a :: x :: xs)) :
    (place order x xs).filter (fun y => order a y = .eq) =
      (xs ++ [x]).filter fun y => order a y = .eq := by
  obtain ⟨before, behind, rfl, hplace, -, hbehind⟩ := exists_place_eq order x xs
  rw [hplace]
  by_cases hax : order a x = .eq
  · -- What is equal to `a` is equal to `x`, so it is not among those that `x` comes before.
    have hnone : behind.filter (fun y => order a y = .eq) = [] := by
      refine List.filter_eq_nil_iff.2 fun y hy hay => ?_
      have ha : a ∈ a :: x :: (before ++ behind) := by simp
      have hx : x ∈ a :: x :: (before ++ behind) := by simp
      have hy' : y ∈ a :: x :: (before ++ behind) := by simp [hy]
      have hya : order y a ≠ .gt := by
        rw [h.swap a ha y hy', of_decide_eq_true hay]
        decide
      have hyx : order y x ≠ .gt := h.trans y hy' a ha x hx hya (by rw [hax]; decide)
      rw [h.swap x hx y hy', hbehind y hy] at hyx
      exact hyx rfl
    simp [List.filter_append, List.filter_cons, hnone]
  · simp [List.filter_append, hax]

theorem arrange_concat (order : α → α → Ordering) (xs : List α) (x : α) :
    arrange order (xs ++ [x]) = place order x (arrange order xs) :=
  List.foldl_append ..

theorem pairwise_arrange (h : Consistent order xs) :
    (arrange order xs).Pairwise fun a b => order a b ≠ .gt := by
  induction xs using List.reverseRecOn with
  | nil => exact .nil
  | append_singleton rest x ih =>
    rw [arrange_concat]
    refine pairwise_place (h.of_subset ?_) (ih (h.of_subset (List.subset_append_left ..)))
    intro y hy
    obtain rfl | hy := List.mem_cons.1 hy
    · simp
    · exact List.mem_append_left [x] ((arrange_perm order rest).mem_iff.1 hy)

theorem filter_arrange {a : α} (h : Consistent order (a :: xs)) :
    (arrange order xs).filter (fun y => order a y = .eq) = xs.filter fun y => order a y = .eq := by
  induction xs using List.reverseRecOn with
  | nil => rfl
  | append_singleton rest x ih =>
    have hrest : Consistent order (a :: x :: arrange order rest) := by
      refine h.of_subset fun y hy => ?_
      simpa [(arrange_perm order rest).mem_iff, or_comm] using hy
    rw [arrange_concat, filter_place hrest, List.filter_append, List.filter_append,
      ih (h.of_subset (List.cons_subset_cons a (List.subset_append_left ..)))]

/-- **Where the order is consistent, the elements are arranged in order, and equal ones as they stood.** -/
theorem stablySorted_arrange (h : Consistent order xs) : StablySorted order xs (arrange order xs) where
  perm := arrange_perm order xs
  sorted := pairwise_arrange h
  stable _ hx := filter_arrange (h.of_subset (List.cons_subset.2 ⟨hx, List.Subset.refl xs⟩))

/-- An order by a key is consistent. -/
theorem consistent_of_key {κ : Type} [Ord κ] [Std.TransOrd κ] (key : α → κ)
    (h : ∀ x ∈ xs, ∀ y ∈ xs, order x y = compare (key x) (key y)) : Consistent order xs where
  swap x hx y hy := by
    rw [h x hx y hy, h y hy x hx, Std.OrientedOrd.eq_swap]
  trans x hx y hy z hz hxy hyz := by
    rw [h x hx y hy, ne_eq, Ordering.ne_gt_iff_isLE] at hxy
    rw [h y hy z hz, ne_eq, Ordering.ne_gt_iff_isLE] at hyz
    rw [h x hx z hz, ne_eq, Ordering.ne_gt_iff_isLE]
    exact Std.TransOrd.isLE_trans hxy hyz

theorem Consistent.flip (h : Consistent order xs) : Consistent (fun x y => order y x) xs where
  swap x hx y hy := h.swap y hy x hx
  trans x hx y hy z hz hxy hyz := h.trans z hz y hy x hx hyz hxy

end Sorting

/-! ### Sides of one kind -/

namespace Comparable

/-- The sides are of one kind of value, or one of them is null. -/
def alike : Comparable → Comparable → Bool
  | null, _ | _, null => true
  | bool _, bool _ | number _, number _ | text _, text _ | compound, compound => true
  | _, _ => false

/-- What a side is sorted by among those of its kind and null. -/
structure Key where
  isValue : Bool := true
  truth : Bool := false
  rank : Double.Rank := ⟨0, 0, 0⟩
  text : String := ""

instance : Ord Key :=
  ⟨compareLex (compareOn Key.isValue) (compareLex (compareOn Key.truth)
    (compareLex (compareOn Key.rank) (compareOn Key.text)))⟩

instance : Std.TransOrd Key :=
  inferInstanceAs (Std.TransCmp (compareLex (compareOn Key.isValue) (compareLex (compareOn Key.truth)
    (compareLex (compareOn Key.rank) (compareOn Key.text)))))

def key : Comparable → Key
  | null => { isValue := false }
  | bool b => { truth := b }
  | number x => { rank := Double.rank x.toModel.unpack }
  | text s => { text := s }
  | instant _ | compound => {}

theorem compare_key (a b : Key) : compare a b = (compare a.isValue b.isValue).then
    ((compare a.truth b.truth).then ((compare a.rank b.rank).then (compare a.text b.text))) := rfl

/-- Sides that are alike are in the order of their keys. -/
theorem sortOrder_eq {a b : Comparable} (h : a.alike b = true) (ha : ∀ x, a = number x → x.isNaN = false)
    (hb : ∀ x, b = number x → x.isNaN = false) : a.sortOrder b = compare a.key b.key := by
  cases a with
  | null => cases b <;> rfl
  | bool p =>
    cases b with
    | null => rfl
    | bool q => simp [compare_key, key, sortOrder, order?]
    | _ => cases h
  | number x =>
    cases b with
    | null => rfl
    | number y => simp [compare_key, key, sortOrder, order?, floatOrder?_eq (ha x rfl) (hb y rfl)]
    | _ => cases h
  | instant t =>
    cases b with
    | null => rfl
    | _ => cases h
  | text s =>
    cases b with
    | null => rfl
    | text t => simp [compare_key, key, sortOrder, order?]
    | _ => cases h
  | compound =>
    cases b with
    | null => rfl
    | compound => rfl
    | _ => cases h

theorem isNaN_of_ofValue {v : Json.Value} {x : Float} (h : ofValue v = number x) : x.isNaN = false := by
  cases v with
  | num n =>
    cases h
    exact n.isNaN_toFloat
  | null | bool | str | arr | obj => cases h

end Comparable

namespace Sorting

theorem isNaN_of_side {field : String} {item : Item} {x : Float} (h : side field item = .number x) :
    x.isNaN = false := by
  unfold side at h
  cases hvalue : item.lookup? field with
  | none =>
    rw [hvalue] at h
    cases h
  | some v =>
    rw [hvalue] at h
    exact Comparable.isNaN_of_ofValue h

/-- **The order by a field is consistent on items whose values of the field are of one kind, or null.** -/
theorem consistent_order {sort : Sorting} {items : List Item}
    (h : ∀ a ∈ items, ∀ b ∈ items, (side sort.field a).alike (side sort.field b) = true) :
    Consistent sort.order items := by
  have hascending : Consistent (fun a b => (side sort.field a).sortOrder (side sort.field b)) items :=
    consistent_of_key (fun item => (side sort.field item).key) fun a ha b hb =>
      Comparable.sortOrder_eq (h a ha b hb) (fun _ => isNaN_of_side) fun _ => isNaN_of_side
  obtain ⟨field, direction⟩ := sort
  cases direction with
  | ascending => exact hascending
  | descending => exact hascending.flip

end Sorting

/-! ### What a sorter comes to -/

namespace Sorter
variable {sorter : Sorter} {sorting : Option Sorting} {sort : Sorting} {items sorted : List Item}

theorem perm_of_sortBy (h : sorter.sortBy sorting items = .ok sorted) : sorted.Perm items := by
  unfold sortBy at h
  cases sorting with
  | none =>
    cases h
    exact .refl items
  | some sort =>
    dsimp only at h
    split at h
    · next hsort =>
      cases h
      exact sorter.perm hsort
    · cases h

theorem sortBy_of_consistent (h : Sorting.Consistent sort.order items) :
    sorter.sortBy (some sort) items = .ok (Sorting.arrange sort.order items) := by
  unfold sortBy
  dsimp only
  rw [sorter.sorted h]

/-- A sorter gives up on items that are in no order alone. -/
theorem of_sortBy_eq_error {e : Error} (h : sorter.sortBy sorting items = .error e) :
    e = .panic .disorder ∧ ∃ sort, sorting = some sort ∧ ¬Sorting.Consistent sort.order items := by
  cases sorting with
  | none => cases h
  | some sort =>
    refine ⟨?_, sort, rfl, fun hconsistent => ?_⟩
    · unfold sortBy at h
      dsimp only at h
      split at h
      · cases h
      · cases h
        rfl
    · rw [sortBy_of_consistent hconsistent] at h
      cases h

end Sorter
end DocumentStore
