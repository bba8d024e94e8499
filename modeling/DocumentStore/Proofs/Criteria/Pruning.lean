import DocumentStore.Filter.Truth
import DocumentStore.Proofs.Criteria.Leaves

/-! Criteria without their markers.

Markers drop out of a tree, and with them the joins that they leave empty (`pruned`). What is left has
a plain truth value (`value`), and this is what the evaluator comes to, though it never builds that
tree and stops at the term that decides a join (`truth?_eq_value_pruned`). -/
namespace DocumentStore

/-- What a leaf says about an item, false where that fails. -/
def Leaf.verdict (l : Leaf) (item : Item) : Bool :=
  match l.holds item with
  | .ok b => b
  | .error _ => false

namespace Criteria

mutual
/-- The tree without markers and without the joins that they leave empty. -/
def pruned : Criteria → Option Criteria
  | leaf l => if l.isMarker then none else some (leaf l)
  | join op terms parent =>
    if (allPruned terms).isEmpty then none else some (join op (allPruned terms) parent)
def allPruned : List Criteria → List Criteria
  | [] => []
  | t :: rest => t.pruned.toList ++ allPruned rest
end

mutual
/-- The truth value of a tree by that of its leaves: And is conjunction, Or is disjunction. -/
def value (verdict : Leaf → Bool) : Criteria → Bool
  | leaf l => verdict l
  | join .and terms _ => allValue verdict terms
  | join .or terms _ => anyValue verdict terms
def allValue (verdict : Leaf → Bool) : List Criteria → Bool
  | [] => true
  | t :: rest => t.value verdict && allValue verdict rest
def anyValue (verdict : Leaf → Bool) : List Criteria → Bool
  | [] => false
  | t :: rest => t.value verdict || anyValue verdict rest
end

/-! ### What is left -/

theorem allPruned_eq_filterMap (terms : List Criteria) : allPruned terms = terms.filterMap pruned := by
  induction terms with
  | nil => rfl
  | cons t rest ih =>
    rw [allPruned, ih, List.filterMap_cons]
    cases t.pruned <;> rfl

/-- Nothing is left of a tree exactly if its leaves are markers. -/
theorem pruned_eq_none_iff (c : Criteria) : c.pruned = none ↔ ∀ l ∈ c.leaves, l.isMarker = true := by
  induction c with
  | leaf l => simp [pruned]
  | join op terms parent ih =>
    have hempty : (allPruned terms).isEmpty = true ↔ ∀ t ∈ terms, t.pruned = none := by
      rw [List.isEmpty_iff, allPruned_eq_filterMap, List.filterMap_eq_nil_iff]
    rw [pruned, leaves_join, List.forall_mem_flatMap, ite_eq_left_iff]
    simp only [reduceCtorEq, imp_false, not_not]
    rw [hempty]
    exact forall₂_congr ih

/-- The leaves of what is left are those that are no markers, in their order. -/
theorem leaves_pruned (c : Criteria) :
    (c.pruned.toList.flatMap leaves) = c.leaves.filter fun l => !l.isMarker := by
  induction c with
  | leaf l => cases h : l.isMarker <;> simp [pruned, h]
  | join op terms parent ih =>
    have hterms : (allPruned terms).flatMap leaves =
        terms.flatMap fun t => t.leaves.filter fun l => !l.isMarker := by
      clear parent op
      induction terms with
      | nil => rfl
      | cons t rest ihr =>
        rw [allPruned, List.flatMap_append, List.flatMap_cons, ih t (List.mem_cons_self ..),
          ihr fun s hs => ih s (List.mem_cons_of_mem t hs)]
    rw [leaves_join, List.filter_flatMap, ← hterms, pruned]
    cases allPruned terms with
    | nil => rfl
    | cons k ks => simp

/-- The leaves that are left are leaves of the tree, and no markers. -/
theorem mem_leaves_of_pruned {c kept : Criteria} (h : c.pruned = some kept) {l : Leaf}
    (hl : l ∈ kept.leaves) : l ∈ c.leaves ∧ l.isMarker = false := by
  have hleaves := leaves_pruned c
  rw [h] at hleaves
  have hmem : l ∈ c.leaves.filter fun l => !l.isMarker := by
    rw [← hleaves]
    exact List.mem_flatMap.2 ⟨kept, List.mem_singleton_self kept, hl⟩
  obtain ⟨hmem, hm⟩ := List.mem_filter.1 hmem
  exact ⟨hmem, by simpa using hm⟩

/-! ### What the evaluator comes to -/

theorem allValue_eq_all (verdict : Leaf → Bool) (terms : List Criteria) :
    allValue verdict terms = terms.all (value verdict) := by
  induction terms with
  | nil => rfl
  | cons t rest ih => rw [allValue, ih, List.all_cons]

theorem anyValue_eq_any (verdict : Leaf → Bool) (terms : List Criteria) :
    anyValue verdict terms = terms.any (value verdict) := by
  induction terms with
  | nil => rfl
  | cons t rest ih => rw [anyValue, ih, List.any_cons]

/-- The value of a join of terms, none where there are no terms. -/
def joinValue (verdict : Leaf → Bool) (op : Connective) (terms : List Criteria) : Option Bool :=
  if terms.isEmpty then none
  else some (match op with
    | .and => terms.all (value verdict)
    | .or => terms.any (value verdict))

theorem map_value_pruned_join (verdict : Leaf → Bool) (op : Connective) (terms : List Criteria)
    (parent : Option String) :
    (join op terms parent).pruned.map (value verdict) = joinValue verdict op (allPruned terms) := by
  unfold joinValue
  rw [pruned, apply_ite (Option.map (value verdict))]
  cases op with
  | and => rw [Option.map_some, value, allValue_eq_all]; rfl
  | or => rw [Option.map_some, value, anyValue_eq_any]; rfl

theorem all?_eq {item : Item} {terms : List Criteria} {verdict : Leaf → Bool}
    (h : ∀ t ∈ terms, t.truth? item = .ok (t.pruned.map (value verdict))) :
    all? item terms = .ok (joinValue verdict .and (allPruned terms)) := by
  induction terms with
  | nil => rfl
  | cons t rest ih =>
    obtain ⟨ht, hrest⟩ := List.forall_mem_cons.1 h
    rw [all?, ht, allPruned, ih hrest]
    cases hkept : t.pruned with
    | none => rfl
    | some kept =>
      cases hvalue : kept.value verdict with
      | false => simp [joinValue, hvalue, bind, Except.bind]
      | true =>
        cases hnil : allPruned rest <;>
          simp [joinValue, hvalue, bind, Except.bind, pure, Except.pure]

theorem any?_eq {item : Item} {terms : List Criteria} {verdict : Leaf → Bool}
    (h : ∀ t ∈ terms, t.truth? item = .ok (t.pruned.map (value verdict))) :
    any? item terms = .ok (joinValue verdict .or (allPruned terms)) := by
  induction terms with
  | nil => rfl
  | cons t rest ih =>
    obtain ⟨ht, hrest⟩ := List.forall_mem_cons.1 h
    rw [any?, ht, allPruned, ih hrest]
    cases hkept : t.pruned with
    | none => rfl
    | some kept =>
      cases hvalue : kept.value verdict with
      | true => simp [joinValue, hvalue, bind, Except.bind]
      | false =>
        cases hnil : allPruned rest <;>
          simp [joinValue, hvalue, bind, Except.bind, pure, Except.pure]

/-- **Where no leaf but markers fails, the evaluator comes to the truth value of the tree without
markers, and to none exactly if nothing of the tree is left.** -/
theorem truth?_eq_value_pruned {item : Item} {c : Criteria}
    (h : ∀ l ∈ c.leaves, l.isMarker = false → l.holds item = .ok (l.verdict item)) :
    c.truth? item = .ok (c.pruned.map (value (·.verdict item))) := by
  induction c with
  | leaf l =>
    cases hm : l.isMarker with
    | true => simp [truth?, pruned, hm]
    | false =>
      rw [truth?, pruned, hm, h l (List.mem_singleton_self l) hm]
      rfl
  | join op terms parent ih =>
    have hterms : ∀ t ∈ terms, t.truth? item = .ok (t.pruned.map (value (·.verdict item))) :=
      fun t ht => ih t ht fun l hl => h l (mem_leaves_join ht hl)
    rw [map_value_pruned_join]
    cases op with
    | and => rw [truth?, all?_eq hterms]
    | or => rw [truth?, any?_eq hterms]

end Criteria
end DocumentStore
