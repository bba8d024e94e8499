import DocumentStore.Criteria.Basic
import Mathlib.Data.List.Basic

/-! The leaves of criteria, from left to right.

What is asked of a tree leaf by leaf is asked of this list: which attributes it references, and what
becomes of it when attributes are renamed. `Criteria.induct` is the induction that proofs about trees
go by: a join may use what is known of each of its terms. -/
namespace DocumentStore

/-- The leaf on another attribute. -/
def Leaf.renamed (f : String → String) (l : Leaf) : Leaf := { l with name := f l.name }

namespace Criteria

/-- Induction over trees: a join inherits from its terms. -/
@[elab_as_elim, induction_eliminator]
theorem induct {P : Criteria → Prop} (leaf : ∀ l, P (leaf l))
    (join : ∀ op terms parent, (∀ t ∈ terms, P t) → P (join op terms parent)) : ∀ c, P c
  | .leaf l => leaf l
  | .join op terms parent => join op terms parent fun t _ => induct leaf join t

mutual
/-- The leaves of a tree. -/
def leaves : Criteria → List Leaf
  | leaf l => [l]
  | join _ terms _ => allLeaves terms
def allLeaves : List Criteria → List Leaf
  | [] => []
  | t :: rest => t.leaves ++ allLeaves rest
end

@[simp] theorem leaves_leaf (l : Leaf) : (leaf l).leaves = [l] := rfl

theorem allLeaves_eq_flatMap (terms : List Criteria) : allLeaves terms = terms.flatMap leaves := by
  induction terms with
  | nil => rfl
  | cons t rest ih => simp [allLeaves, ih]

@[simp] theorem leaves_join (op : Connective) (terms : List Criteria) (parent : Option String) :
    (join op terms parent).leaves = terms.flatMap leaves :=
  allLeaves_eq_flatMap terms

/-- A join has the leaves of its terms. -/
theorem mem_leaves_join {op : Connective} {terms : List Criteria} {parent : Option String} {t : Criteria}
    {l : Leaf} (ht : t ∈ terms) (hl : l ∈ t.leaves) : l ∈ (join op terms parent).leaves := by
  rw [leaves_join]
  exact List.mem_flatMap.2 ⟨t, ht, hl⟩

/-- A tree references the attributes of its leaves. -/
theorem references_iff (name : String) (c : Criteria) :
    c.references name = true ↔ ∃ l ∈ c.leaves, l.name = name := by
  induction c with
  | leaf l => simp [references]
  | join op terms parent ih =>
    simp only [references, anyReferences_eq_any, List.any_eq_true, leaves_join, List.mem_flatMap]
    constructor
    · intro h
      obtain ⟨t, ht, h⟩ := h
      obtain ⟨l, hl, hname⟩ := (ih t ht).1 h
      exact ⟨l, ⟨t, ht, hl⟩, hname⟩
    · intro h
      obtain ⟨l, ⟨t, ht, hl⟩, hname⟩ := h
      exact ⟨t, ht, (ih t ht).2 ⟨l, hl, hname⟩⟩

/-- Renaming attributes renames those of the leaves, and moves no leaf. -/
theorem leaves_mapNames (f : String → String) (c : Criteria) :
    (c.mapNames f).leaves = c.leaves.map (Leaf.renamed f) := by
  induction c with
  | leaf l => rfl
  | join op terms parent ih =>
    simp only [mapNames, mapAllNames_eq_map, leaves_join, List.flatMap_map, List.map_flatMap]
    exact List.flatMap_congr ih

end Criteria
end DocumentStore
