import Mathlib.Data.List.Forall2

/-! Lists worked through in an order of their own.

The elements of a list are taken in any order of their positions (`atPositions`), and what becomes of
them is put back in the order of the list (`inPlace`). What is so to be said of each element and what
becomes of it can be said of the two lists side by side (`forall₂_inPlace`). -/
namespace DocumentStore

variable {α β : Type}

/-- The elements of a list at some positions, each with its position. -/
def atPositions (xs : List α) (order : List Nat) : List (α × Nat) :=
  order.filterMap fun i => xs[i]?.map (·, i)

/-- What comes with positions, in the order of these. -/
def inPlace (ys : List (β × Nat)) : List β := (ys.mergeSort fun a b => a.2 ≤ b.2).map Prod.fst

theorem mem_of_mem_atPositions {xs : List α} {order : List Nat} {c : α × Nat}
    (h : c ∈ atPositions xs order) : c.1 ∈ xs := by
  obtain ⟨i, -, hi⟩ := List.mem_filterMap.1 h
  obtain ⟨x, hx, rfl⟩ := Option.map_eq_some_iff.1 hi
  exact List.mem_of_getElem? hx

theorem atPositions_range (xs : List α) : atPositions xs (List.range xs.length) = xs.zipIdx := by
  have hrange : List.range xs.length = xs.zipIdx.map Prod.snd := by
    rw [List.zipIdx_map_snd, List.range_eq_range']
  have hsame : ∀ c ∈ xs.zipIdx, ((fun i => xs[i]?.map (·, i)) ∘ Prod.snd) c = some c := by
    intro c hc
    rw [Function.comp_apply, List.mem_zipIdx_iff_getElem?.1 hc]
    rfl
  rw [atPositions, hrange, List.filterMap_map, List.filterMap_congr hsame, List.filterMap_some]

theorem perm_atPositions {xs : List α} {order : List Nat} (h : order.Perm (List.range xs.length)) :
    (atPositions xs order).Perm xs.zipIdx := by
  rw [← atPositions_range]
  exact h.filterMap _

/-- In any order of all positions the elements of the list stand rearranged. -/
theorem perm_map_fst_atPositions {xs : List α} {order : List Nat}
    (h : order.Perm (List.range xs.length)) : ((atPositions xs order).map Prod.fst).Perm xs := by
  have hcalls := (perm_atPositions h).map Prod.fst
  rwa [List.zipIdx_map_fst] at hcalls

theorem inPlace_perm (ys : List (β × Nat)) : (inPlace ys).Perm (ys.map Prod.fst) :=
  (List.mergeSort_perm ys _).map Prod.fst

theorem pairwise_zipIdx (xs : List α) : xs.zipIdx.Pairwise fun a b => a.2 < b.2 := by
  rw [← List.pairwise_map (f := Prod.snd), List.zipIdx_map_snd]
  exact List.pairwise_lt_range' 1

/-- However the elements stand, sorted by position they stand as in the list. -/
theorem mergeSort_eq_zipIdx {xs : List α} {calls : List (α × Nat)} (h : calls.Perm xs.zipIdx) :
    calls.mergeSort (fun a b => a.2 ≤ b.2) = xs.zipIdx := by
  have hsorted : (calls.mergeSort fun a b => a.2 ≤ b.2).Pairwise fun a b => a.2 ≤ b.2 := by
    refine (List.pairwise_mergeSort (fun a b c hab hbc => ?_) (fun a b => ?_) calls).imp of_decide_eq_true
    · exact decide_eq_true (Nat.le_trans (of_decide_eq_true hab) (of_decide_eq_true hbc))
    · rw [Bool.or_eq_true, decide_eq_true_iff, decide_eq_true_iff]
      exact Nat.le_total a.2 b.2
  have hperm := (List.mergeSort_perm calls fun a b => a.2 ≤ b.2).trans h
  refine hperm.eq_of_pairwise (fun a b ha hb hab hba => ?_) hsorted
    ((pairwise_zipIdx xs).imp Nat.le_of_lt)
  have ha := List.mem_zipIdx_iff_getElem?.1 (hperm.mem_iff.1 ha)
  have hb := List.mem_zipIdx_iff_getElem?.1 hb
  have hposition := Nat.le_antisymm hab hba
  rw [hposition, hb] at ha
  exact Prod.ext (Option.some.inj ha).symm hposition

theorem inPlace_zipIdx (xs : List α) : inPlace xs.zipIdx = xs := by
  rw [inPlace, mergeSort_eq_zipIdx (List.Perm.refl _), List.zipIdx_map_fst]

/-- What becomes of the elements at some positions, with these positions, is what becomes of them. -/
theorem forall₂_zip_positions {R : α → β → Prop} {calls : List (α × Nat)} {ys : List β}
    (h : List.Forall₂ R (calls.map Prod.fst) ys) :
    List.Forall₂ (fun c d => d.2 = c.2 ∧ R c.1 d.1) calls (ys.zip (calls.map Prod.snd)) := by
  induction calls generalizing ys with
  | nil =>
    cases h
    exact .nil
  | cons call rest ih =>
    cases h with
    | cons hfirst hrest => exact .cons ⟨rfl, hfirst⟩ (ih hrest)

theorem forall₂_inPlace {R : α → β → Prop} {xs : List α} {calls : List (α × Nat)}
    {done : List (β × Nat)} (hcalls : calls.Perm xs.zipIdx)
    (hdone : List.Forall₂ (fun c d => d.2 = c.2 ∧ R c.1 d.1) calls done) :
    List.Forall₂ R xs (inPlace done) := by
  obtain ⟨hlength, hrelated⟩ := List.forall₂_iff_zip.1 hdone
  -- Pairs of an element and what becomes of it can be sorted by either position.
  have hfst : ((calls.zip done).mergeSort fun a b => a.1.2 ≤ b.1.2).map Prod.fst = xs.zipIdx := by
    rw [List.map_mergeSort (s := fun (a b : α × Nat) => a.2 ≤ b.2) fun _ _ _ _ => rfl,
      List.map_fst_zip (Nat.le_of_eq hlength)]
    exact mergeSort_eq_zipIdx hcalls
  have hsnd : ((calls.zip done).mergeSort fun a b => a.1.2 ≤ b.1.2).map Prod.snd =
      done.mergeSort fun a b => a.2 ≤ b.2 := by
    rw [List.map_mergeSort (s := fun (a b : β × Nat) => a.2 ≤ b.2),
      List.map_snd_zip (Nat.le_of_eq hlength.symm)]
    intro a ha b hb
    rw [(hrelated ha).1, (hrelated hb).1]
  rw [← List.zipIdx_map_fst 0 xs, ← hfst, inPlace, ← hsnd, List.map_map, List.map_map,
    List.forall₂_map_left_iff, List.forall₂_map_right_iff, List.forall₂_same]
  intro p hp
  exact (hrelated ((List.mergeSort_perm _ _).mem_iff.1 hp)).2

end DocumentStore
