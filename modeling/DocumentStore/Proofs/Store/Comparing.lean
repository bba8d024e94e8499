import DocumentStore.Proofs.Store.Pages
import DocumentStore.Proofs.Store.Sorting

/-! Which items sorting puts in order.

Values of different kinds count as equal, so a value of one kind may stand between two of another, where the
first comes behind the second (`Sorting.Tangled`). Nothing else keeps the order by a field from being
transitive (`Sorting.trans_iff`). Where it is transitive there is one way to sort items stably, and a query
comes to a window of that, whatever sorts for it; of three tangled items there is none
(`Sorting.untangled_iff`). -/
namespace DocumentStore

/-! ### Sides of two kinds -/

namespace Comparable

theorem alike_comm (a b : Comparable) : a.alike b = b.alike a := by
  cases a <;> cases b <;> rfl

theorem alike_trans {a b c : Comparable} (hb : b ≠ null) (hab : a.alike b = true)
    (hbc : b.alike c = true) : a.alike c = true := by
  cases b with
  | null => exact absurd rfl hb
  | instant =>
    cases a with
    | null => rfl
    | bool | number | instant | text | compound => cases hab
  | bool | number | text | compound => cases a <;> cases hab <;> cases c <;> cases hbc <;> rfl

theorem eq_null_of_sortOrder_null {a : Comparable} (h : a.sortOrder null ≠ .gt) : a = null := by
  cases a with
  | null => rfl
  | bool | number | instant | text | compound => exact absurd rfl h

theorem sortOrder_null_ne_gt (a : Comparable) : null.sortOrder a ≠ .gt := by
  cases a <;> exact nofun

section Values
variable {u v w : Json.Value}

/-- Values of different kinds count as equal. -/
theorem sortOrder_of_not_alike (h : (ofValue u).alike (ofValue v) = false) :
    (ofValue u).sortOrder (ofValue v) = .eq := by
  cases u <;> cases v <;> first | rfl | cases h

theorem sortOrder_ofValue (h : (ofValue u).alike (ofValue v) = true) :
    (ofValue u).sortOrder (ofValue v) = compare (ofValue u).key (ofValue v).key :=
  sortOrder_eq h (fun _ => isNaN_of_ofValue) fun _ => isNaN_of_ofValue

theorem sortOrder_swap (u v : Json.Value) :
    (ofValue v).sortOrder (ofValue u) = ((ofValue u).sortOrder (ofValue v)).swap := by
  cases h : (ofValue u).alike (ofValue v) with
  | true =>
    rw [sortOrder_ofValue h, sortOrder_ofValue (alike_comm .. ▸ h), ← Std.OrientedOrd.eq_swap]
  | false =>
    rw [sortOrder_of_not_alike h, sortOrder_of_not_alike (alike_comm .. ▸ h)]
    rfl

/-- Going from one value to the next leads to no smaller one, unless the value in the middle is of another
kind than both. -/
theorem sortOrder_trans (h : (ofValue u).alike (ofValue v) = true ∨ (ofValue v).alike (ofValue w) = true)
    (huv : (ofValue u).sortOrder (ofValue v) ≠ .gt) (hvw : (ofValue v).sortOrder (ofValue w) ≠ .gt) :
    (ofValue u).sortOrder (ofValue w) ≠ .gt := by
  intro hgt
  have hends : (ofValue u).alike (ofValue w) = true := by
    by_contra hdiffer
    rw [sortOrder_of_not_alike (Bool.eq_false_iff.2 hdiffer)] at hgt
    cases hgt
  have hu : ofValue u ≠ null := by
    intro hnull
    rw [hnull] at hgt
    exact sortOrder_null_ne_gt _ hgt
  have hv : ofValue v ≠ null := fun hnull => hu (eq_null_of_sortOrder_null (hnull ▸ huv))
  have hw : ofValue w ≠ null := fun hnull => hv (eq_null_of_sortOrder_null (hnull ▸ hvw))
  obtain ⟨hfirst, hsecond⟩ : (ofValue u).alike (ofValue v) = true ∧ (ofValue v).alike (ofValue w) = true := by
    obtain hfirst | hsecond := h
    · exact ⟨hfirst, alike_trans hu (alike_comm .. ▸ hfirst) hends⟩
    · exact ⟨alike_trans hw hends (alike_comm .. ▸ hsecond), hsecond⟩
  rw [sortOrder_ofValue hfirst, ne_eq, Ordering.ne_gt_iff_isLE] at huv
  rw [sortOrder_ofValue hsecond, ne_eq, Ordering.ne_gt_iff_isLE] at hvw
  rw [sortOrder_ofValue hends] at hgt
  exact Ordering.ne_gt_iff_isLE.2 (Std.TransOrd.isLE_trans huv hvw) hgt

end Values
end Comparable

/-! ### The order by a field -/

namespace Sorting
variable {sort : Sorting} {a b c : Item} {items : List Item}

/-- The value of the second item is of another kind than those of the others, and counts as equal to both,
while the first comes behind the third. -/
structure Tangled (sort : Sorting) (a b c : Item) : Prop where
  first : (side sort.field a).alike (side sort.field b) = false
  second : (side sort.field b).alike (side sort.field c) = false
  inverted : sort.order a c = .gt

instance : Decidable (sort.Tangled a b c) :=
  decidable_of_iff ((side sort.field a).alike (side sort.field b) = false ∧
      (side sort.field b).alike (side sort.field c) = false ∧ sort.order a c = .gt)
    ⟨fun h => ⟨h.1, h.2.1, h.2.2⟩, fun h => ⟨h.first, h.second, h.inverted⟩⟩

/-- An item is sorted by a value, null where it has none. -/
theorem exists_side_eq (field : String) (item : Item) : ∃ v, side field item = .ofValue v := by
  unfold side
  cases item.lookup? field with
  | none => exact ⟨.null, rfl⟩
  | some v => exact ⟨v, rfl⟩

theorem order_swap (sort : Sorting) (a b : Item) : sort.order b a = (sort.order a b).swap := by
  obtain ⟨u, hu⟩ := exists_side_eq sort.field a
  obtain ⟨v, hv⟩ := exists_side_eq sort.field b
  unfold order
  rw [hu, hv]
  cases sort.direction with
  | ascending => exact Comparable.sortOrder_swap u v
  | descending => exact Comparable.sortOrder_swap v u

theorem order_of_not_alike (h : (side sort.field a).alike (side sort.field b) = false) :
    sort.order a b = .eq := by
  obtain ⟨u, hu⟩ := exists_side_eq sort.field a
  obtain ⟨v, hv⟩ := exists_side_eq sort.field b
  unfold order
  rw [hu, hv] at h ⊢
  cases sort.direction with
  | ascending => exact Comparable.sortOrder_of_not_alike h
  | descending => exact Comparable.sortOrder_of_not_alike (Comparable.alike_comm .. ▸ h)

theorem order_trans (h : (side sort.field a).alike (side sort.field b) = true ∨
      (side sort.field b).alike (side sort.field c) = true)
    (hab : sort.order a b ≠ .gt) (hbc : sort.order b c ≠ .gt) : sort.order a c ≠ .gt := by
  obtain ⟨u, hu⟩ := exists_side_eq sort.field a
  obtain ⟨v, hv⟩ := exists_side_eq sort.field b
  obtain ⟨w, hw⟩ := exists_side_eq sort.field c
  rw [hu, hv, hw] at h
  unfold order at hab hbc ⊢
  rw [hu, hv] at hab
  rw [hv, hw] at hbc
  rw [hu, hw]
  cases hdirection : sort.direction with
  | ascending =>
    rw [hdirection] at hab hbc
    exact Comparable.sortOrder_trans h hab hbc
  | descending =>
    rw [hdirection] at hab hbc
    refine Comparable.sortOrder_trans (h.symm.imp ?_ ?_) hbc hab
    · exact fun halike => Comparable.alike_comm .. ▸ halike
    · exact fun halike => Comparable.alike_comm .. ▸ halike

/-- **The order by a field is transitive on three items unless they are tangled.** -/
theorem trans_iff : (sort.order a b ≠ .gt → sort.order b c ≠ .gt → sort.order a c ≠ .gt) ↔
    ¬sort.Tangled a b c := by
  constructor
  · intro htrans htangled
    have hab := order_of_not_alike htangled.first
    have hbc := order_of_not_alike htangled.second
    exact htrans (by rw [hab]; decide) (by rw [hbc]; decide) htangled.inverted
  · intro huntangled hab hbc hac
    refine order_trans (Classical.or_iff_not_imp_left.2 fun hfirst => ?_) hab hbc hac
    by_contra hsecond
    exact huntangled ⟨Bool.eq_false_iff.2 hfirst, Bool.eq_false_iff.2 hsecond, hac⟩

theorem consistent_iff : Consistent sort.order items ↔
    ∀ a ∈ items, ∀ b ∈ items, ∀ c ∈ items, ¬sort.Tangled a b c := by
  constructor
  · exact fun h a ha b hb c hc => trans_iff.1 (h.trans a ha b hb c hc)
  · exact fun h => ⟨fun a _ b _ => order_swap sort a b,
      fun a ha b hb c hc => trans_iff.2 (h a ha b hb c hc)⟩

/-! ### One way to sort -/

/-- Lists of the same elements, in order, that have those equal to an element one after the other alike. -/
theorem eq_of_perm_of_sorted {α : Type} {order : α → α → Ordering} {ys zs : List α}
    (h : Consistent order ys) (hperm : ys.Perm zs) (hys : ys.Pairwise fun a b => order a b ≠ .gt)
    (hzs : zs.Pairwise fun a b => order a b ≠ .gt)
    (hties : ∀ x ∈ ys, ys.filter (fun y => order x y = .eq) = zs.filter fun y => order x y = .eq) :
    ys = zs := by
  induction ys generalizing zs with
  | nil => exact (List.nil_perm.1 hperm).symm
  | cons y ys ih =>
    have hself : ∀ x ∈ y :: ys, order x x = .eq := fun x hx => by
      have hswap := h.swap x hx x hx
      cases horder : order x x <;> simp_all
    cases zs with
    | nil => exact List.perm_nil.1 hperm
    | cons z zs =>
      have hy : y ∈ y :: ys := List.mem_cons_self
      have hz : z ∈ y :: ys := hperm.mem_iff.2 List.mem_cons_self
      -- Each of the two heads comes behind nothing in the list of the other, so they are equal.
      have hyz : order y z = .eq := by
        have hle : order y z ≠ .gt := by
          obtain rfl | hz := List.mem_cons.1 hz
          · rw [hself z hy]
            decide
          · exact List.rel_of_pairwise_cons hys hz
        have hge : order z y ≠ .gt := by
          obtain rfl | hy := List.mem_cons.1 (hperm.mem_iff.1 hy)
          · rw [hself y hy]
            decide
          · exact List.rel_of_pairwise_cons hzs hy
        rw [h.swap y hy z hz] at hge
        cases horder : order y z <;> simp_all
      have hhead := hties y hy
      rw [List.filter_cons_of_pos (by simp [hself y hy]), List.filter_cons_of_pos (by simp [hyz])] at hhead
      obtain rfl := (List.cons.inj hhead).1
      congr 1
      refine ih (h.of_subset (List.subset_cons_self ..)) (hperm.cons_inv) hys.of_cons hzs.of_cons
        fun x hx => ?_
      have htie := hties x (List.mem_cons_of_mem y hx)
      rw [List.filter_cons, List.filter_cons] at htie
      split at htie
      · exact (List.cons.inj htie).2
      · exact htie

/-- **There is one way to sort by a consistent order stably.** -/
theorem StablySorted.unique {α : Type} {order : α → α → Ordering} {xs ys zs : List α}
    (h : Consistent order xs) (hys : StablySorted order xs ys) (hzs : StablySorted order xs zs) :
    ys = zs := by
  refine eq_of_perm_of_sorted (h.of_subset hys.perm.subset) (hys.perm.trans hzs.perm.symm) hys.sorted
    hzs.sorted fun x hx => ?_
  have hx := hys.perm.mem_iff.1 hx
  rw [hys.stable x hx, hzs.stable x hx]

/-- A sort that is stable wherever the order is consistent is a sorter. -/
def Sorter.ofStable (sort : (Item → Item → Ordering) → List Item → Option (List Item))
    (perm : ∀ {order xs ys}, sort order xs = some ys → ys.Perm xs)
    (stable : ∀ {order xs}, Consistent order xs → ∃ ys, sort order xs = some ys ∧ StablySorted order xs ys) :
    Sorter where
  sort := sort
  perm := perm
  sorted h := by
    obtain ⟨ys, hsort, hys⟩ := stable h
    rw [hsort, hys.unique h (stablySorted_arrange h)]

/-- Tangled items are sorted by no list: they would have to stay as they are, out of order. -/
theorem Tangled.not_stablySorted (h : sort.Tangled a b c) (results : List Item) :
    ¬StablySorted sort.order [a, b, c] results := by
  intro hsorted
  have hba : sort.order b a = .eq := by
    rw [order_swap, order_of_not_alike h.first]
    rfl
  have hbb : sort.order b b = .eq := by
    have hswap := order_swap sort b b
    cases horder : sort.order b b <;> simp_all
  have hstable := hsorted.stable b (by simp)
  have hresults : results = [a, b, c] := by
    have hsame : results.filter (fun y => sort.order b y = .eq) = [a, b, c] := by
      simpa [hba, hbb, order_of_not_alike h.second] using hstable
    rw [← hsame, List.filter_sublist.eq_of_length]
    rw [hsame, hsorted.perm.length_eq]
  have hpairwise := hsorted.sorted
  rw [hresults] at hpairwise
  exact List.rel_of_pairwise_cons hpairwise (by simp) h.inverted

/-- **The order by a field is the same backwards, and transitive but for tangled items. Where no items are
tangled, there is one way to sort those that a query finds, whichever they are and in whatever order, and
the query yields its window of that, whatever sorts for it; where some are, there are items that it finds and
nothing sorts.** -/
theorem untangled_iff (sort : Sorting) :
    (∀ a b, sort.order b a = (sort.order a b).swap) ∧
    (∀ a b c, (sort.order a b ≠ .gt → sort.order b c ≠ .gt → sort.order a c ≠ .gt) ↔
      ¬sort.Tangled a b c) ∧
    ∀ items : List Item,
      (∀ q : Query, q.sorting = some sort → ∀ found ⊆ items, ∃ results,
        (∀ results', StablySorted sort.order found results' ↔ results' = results) ∧
        ∀ sorter, q.arranged sorter found = .ok (window q.skip q.limit results)) ↔
      ∀ a ∈ items, ∀ b ∈ items, ∀ c ∈ items, ¬sort.Tangled a b c := by
  refine ⟨order_swap sort, fun a b c => trans_iff, fun items => ⟨?_, ?_⟩⟩
  · intro h a ha b hb c hc htangled
    have hfound : [a, b, c] ⊆ items := by simp [ha, hb, hc]
    obtain ⟨results, hresults, -⟩ := h { sorting := some sort } rfl [a, b, c] hfound
    exact htangled.not_stablySorted results ((hresults results).2 rfl)
  · intro h q hq found hfound
    have hconsistent : Consistent sort.order found := (consistent_iff.2 h).of_subset hfound
    have hsorted := stablySorted_arrange hconsistent
    refine ⟨arrange sort.order found, fun results' => ⟨?_, ?_⟩, fun sorter => ?_⟩
    · exact fun hresults => hresults.unique hconsistent hsorted
    · exact fun hresults => hresults ▸ hsorted
    · refine Query.arranged_eq_ok_iff.2 ⟨_, ?_, rfl⟩
      rw [hq]
      exact Sorter.sortBy_of_consistent hconsistent

/-- An item with a value under `rank`. -/
def withRank (rank : Json.Value) : Item := .ofList [("rank", rank)]

def byRank : Sorting := ⟨"rank", .ascending⟩

/-- A rank that is null or missing comes first. -/
theorem exists_untangled_ranks : ∃ results,
    (∀ results', StablySorted byRank.order
        [withRank (.int 2), withRank .null, withRank (.int 1), .empty] results' ↔ results' = results) ∧
      results = [withRank .null, .empty, withRank (.int 1), withRank (.int 2)] := by
  obtain ⟨results, hresults, harranged⟩ :=
    ((untangled_iff byRank).2.2 [withRank (.int 2), withRank .null, withRank (.int 1), .empty]).2
      (by decide +kernel) { sorting := some byRank } rfl _ (List.Subset.refl _)
  exact ⟨results, hresults, (Except.ok.inj (harranged .placing)).symm⟩

/-- The number two counts as equal to a text, and the text to the number one. A query for the first of the
three yields the two. -/
theorem exists_tangled :
    byRank.order (withRank (.int 2)) (withRank (.str "x")) ≠ .gt ∧
    byRank.order (withRank (.str "x")) (withRank (.int 1)) ≠ .gt ∧
    byRank.order (withRank (.int 2)) (withRank (.int 1)) = .gt ∧
    ({ sorting := some byRank, limit := some 1 } : Query).arranged .placing
      [withRank (.int 2), withRank (.str "x"), withRank (.int 1)] = .ok [withRank (.int 2)] ∧
    ¬∃ results, StablySorted byRank.order
      [withRank (.int 2), withRank (.str "x"), withRank (.int 1)] results := by
  have htangled : byRank.Tangled (withRank (.int 2)) (withRank (.str "x")) (withRank (.int 1)) := by
    decide +kernel
  refine ⟨by decide +kernel, by decide +kernel, htangled.inverted, rfl, ?_⟩
  exact fun ⟨results, hresults⟩ => htangled.not_stablySorted results hresults

end Sorting
end DocumentStore
