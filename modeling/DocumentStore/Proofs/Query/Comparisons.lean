import DocumentStore.Proofs.Criteria.Leaves
import DocumentStore.Proofs.Result
import DocumentStore.Query.Clause

/-! The comparisons that a filter clause is made of.

Compiling criteria keeps the order of their leaves: the comparisons of the clause, from left to right,
are those of the leaves other than markers (`comparisons_clause?`), and a clause comes out only where
each of these leaves has a comparison. -/
namespace DocumentStore

/-- A comparison: the path in query text, the symbol and the operand. -/
structure Comparison where
  path : String
  symbol : Symbol
  operand : Term

namespace Clause

mutual
/-- The comparisons of a clause, from left to right. -/
def comparisons : Clause → List Comparison
  | comparison path symbol operand => [⟨path, symbol, operand⟩]
  | join _ parts => allComparisons parts
def allComparisons : List Clause → List Comparison
  | [] => []
  | c :: rest => c.comparisons ++ allComparisons rest
end

theorem allComparisons_eq_flatMap (cs : List Clause) :
    allComparisons cs = cs.flatMap comparisons := by
  induction cs with
  | nil => rfl
  | cons c rest ih => rw [allComparisons, ih, List.flatMap_cons]

end Clause

/-- The comparison of a leaf, none of a marker. -/
def Leaf.comparison? (a : Aliases) (l : Leaf) : Option Comparison :=
  if l.isMarker then none
  else
    match l.op.symbol?, l.operand with
    | some symbol, some operand => some ⟨l.storedPath a, symbol, operand⟩
    | _, _ => none

/-- A leaf has a clause exactly where query text has its operator, it has an operand, and membership
is asked of a list that is not empty; the clause is then its comparison. -/
theorem Leaf.clause_eq_ok_iff {a : Aliases} {l : Leaf} {clause : Clause} :
    l.clause a = .ok clause ↔ ∃ symbol operand, l.op.symbol? = some symbol ∧ l.operand = some operand ∧
      (l.op = .member → operand.isArray = true ∧ operand.elements ≠ []) ∧
      clause = .comparison (l.storedPath a) symbol operand := by
  unfold Leaf.clause
  cases hs : l.op.symbol? with
  | none => simp
  | some symbol =>
    cases ho : l.operand with
    | none => simp
    | some operand =>
      simp only
      split
      · next hm =>
        refine ⟨nofun, ?_⟩
        intro h
        obtain ⟨_, _, _, hop, hlist, _⟩ := h
        cases hop
        obtain ⟨harray, hne⟩ := hlist hm.1
        rcases hm.2 with h | h
        · rw [harray] at h
          cases h
        · exact absurd (List.isEmpty_iff.1 h) hne
      · next hm =>
        constructor
        · intro h
          cases h
          refine ⟨symbol, operand, rfl, rfl, fun hop => ?_, rfl⟩
          have := not_or.1 fun h => hm ⟨hop, h⟩
          exact ⟨by simpa using this.1, fun he => this.2 (List.isEmpty_iff.2 he)⟩
        · intro h
          obtain ⟨_, _, hsym, hop, _, rfl⟩ := h
          cases hsym
          cases hop
          rfl

namespace Criteria

theorem clause?_marker {a : Aliases} {l : Leaf} (h : l.isMarker = true) :
    (leaf l).clause? a = .ok none := by
  simp [clause?, h]

/-- A leaf that is no marker compiles as its clause does. -/
theorem clause?_leaf {a : Aliases} {l : Leaf} (h : l.isMarker = false) :
    (leaf l).clause? a = some <$> l.clause a := by
  simp [clause?, h]

/-- A join compiles where its terms do, to the join of what they leave. -/
theorem clause?_join_eq_ok_iff {a : Aliases} {op : Connective} {terms : List Criteria}
    {parent : Option String} {result : Option Clause} :
    (join op terms parent).clause? a = .ok result ↔
      ∃ parts, clauses a terms = .ok parts ∧
        result = if parts.isEmpty then none else some (.join op parts) := by
  rw [clause?, Result.bind_eq_ok_iff]
  refine exists_congr fun parts => and_congr_right fun _ => ?_
  exact ⟨fun h => (Except.ok.inj h).symm, fun h => congrArg Except.ok h.symm⟩

theorem clauses_cons_eq_ok_iff {a : Aliases} {t : Criteria} {rest : List Criteria}
    {parts : List Clause} :
    clauses a (t :: rest) = .ok parts ↔
      ∃ first others, t.clause? a = .ok first ∧ clauses a rest = .ok others ∧
        parts = first.toList ++ others := by
  simp only [clauses, Result.bind_eq_ok_iff]
  constructor
  · intro h
    obtain ⟨first, hfirst, others, hothers, h⟩ := h
    exact ⟨first, others, hfirst, hothers, (Except.ok.inj h).symm⟩
  · intro h
    obtain ⟨first, others, hfirst, hothers, rfl⟩ := h
    exact ⟨first, hfirst, others, hothers, rfl⟩

/-- The parts of a join are what terms of it compile to. -/
theorem exists_of_mem_clauses {a : Aliases} {terms : List Criteria} {parts : List Clause}
    (h : clauses a terms = .ok parts) {clause : Clause} (hmem : clause ∈ parts) :
    ∃ t ∈ terms, t.clause? a = .ok (some clause) := by
  induction terms generalizing parts with
  | nil =>
    cases h
    cases hmem
  | cons t rest ih =>
    obtain ⟨first, others, hfirst, hothers, rfl⟩ := clauses_cons_eq_ok_iff.1 h
    rcases List.mem_append.1 hmem with hmem | hmem
    · obtain rfl := Option.mem_toList.1 hmem
      exact ⟨t, List.mem_cons_self .., hfirst⟩
    · obtain ⟨t', ht', hclause⟩ := ih hothers hmem
      exact ⟨t', List.mem_cons_of_mem t ht', hclause⟩

/-- Where a tree compiles, each of its leaves other than markers has a comparison. -/
theorem clause_of_mem_leaves {a : Aliases} {c : Criteria} {result : Option Clause}
    (h : c.clause? a = .ok result) {l : Leaf} (hl : l ∈ c.leaves) (hm : l.isMarker = false) :
    ∃ clause, l.clause a = .ok clause := by
  induction c generalizing result with
  | leaf l' =>
    obtain rfl := List.mem_singleton.1 hl
    rw [clause?_leaf hm] at h
    obtain ⟨clause, hclause, -⟩ := Result.map_eq_ok_iff.1 h
    exact ⟨clause, hclause⟩
  | join op terms parent ih =>
    obtain ⟨parts, hparts, -⟩ := clause?_join_eq_ok_iff.1 h
    clear h
    rw [leaves_join, List.mem_flatMap] at hl
    obtain ⟨t, ht, hl⟩ := hl
    induction terms generalizing parts with
    | nil => cases ht
    | cons t' rest ihr =>
      obtain ⟨first, others, hfirst, hothers, -⟩ := clauses_cons_eq_ok_iff.1 hparts
      rcases List.mem_cons.1 ht with rfl | ht
      · exact ih t (List.mem_cons_self ..) hfirst hl
      · exact ihr (fun s hs => ih s (List.mem_cons_of_mem t' hs)) others hothers ht

/-- The comparisons of what a tree compiles to. -/
def comparisonsOf (result : Option Clause) : List Comparison :=
  match result with
  | some clause => clause.comparisons
  | none => []

theorem flatMap_comparisons_toList (result : Option Clause) :
    result.toList.flatMap Clause.comparisons = comparisonsOf result := by
  cases result with
  | none => rfl
  | some clause => exact List.flatMap_singleton ..

/-- **The comparisons of a clause are those of the leaves other than markers, in their order.** -/
theorem comparisons_clause? {a : Aliases} {c : Criteria} {result : Option Clause}
    (h : c.clause? a = .ok result) :
    comparisonsOf result = c.leaves.filterMap (Leaf.comparison? a) := by
  induction c generalizing result with
  | leaf l =>
    cases hm : l.isMarker with
    | true =>
      rw [clause?_marker hm] at h
      cases h
      simp [comparisonsOf, Leaf.comparison?, hm]
    | false =>
      rw [clause?_leaf hm] at h
      obtain ⟨clause, hclause, rfl⟩ := Result.map_eq_ok_iff.1 h
      obtain ⟨symbol, operand, hs, ho, -, rfl⟩ := Leaf.clause_eq_ok_iff.1 hclause
      simp [comparisonsOf, Clause.comparisons, Leaf.comparison?, hm, hs, ho]
  | join op terms parent ih =>
    obtain ⟨parts, hparts, rfl⟩ := clause?_join_eq_ok_iff.1 h
    have hall : parts.flatMap Clause.comparisons =
        terms.flatMap fun t => t.leaves.filterMap (Leaf.comparison? a) := by
      clear h
      induction terms generalizing parts with
      | nil => cases hparts; rfl
      | cons t rest ihr =>
        obtain ⟨first, others, hfirst, hothers, rfl⟩ := clauses_cons_eq_ok_iff.1 hparts
        rw [List.flatMap_append, flatMap_comparisons_toList, List.flatMap_cons,
          ih t (List.mem_cons_self ..) hfirst,
          ihr (fun s hs => ih s (List.mem_cons_of_mem t hs)) others hothers]
    rw [leaves_join, List.filterMap_flatMap, ← hall]
    cases parts with
    | nil => rfl
    | cons p ps => exact Clause.allComparisons_eq_flatMap (p :: ps)

end Criteria
end DocumentStore
