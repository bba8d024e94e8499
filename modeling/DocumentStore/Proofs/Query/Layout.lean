import DocumentStore.Proofs.Query.Comparisons
import DocumentStore.Query.Search

/-! How the text of a search is laid out.

Searches and counts share one layout (`Searches.layout`): the selection and the partition, the guard
where the criteria reference `isDeleted`, the clause of the criteria where they have one, and what
closes the query. The clause starts with parentheses, if any, and then with the path of its first
comparison, so it is never taken for the guard. -/
namespace DocumentStore

/-! ### How a clause starts -/

/-- What stands between a path and its operand. -/
def Symbol.before : Symbol → String
  | member => " IN ("
  | symbol => " " ++ symbol.text ++ " "

/-- What stands behind the operand. -/
def Symbol.behind : Symbol → String
  | member => ")"
  | _ => ""

namespace Clause

theorem text_comparison (path : String) (symbol : Symbol) (operand : Term) :
    (comparison path symbol operand).text =
      path ++ (symbol.before ++ Literal.text operand ++ symbol.behind) := by
  cases symbol <;>
    simp only [text, Symbol.before, Symbol.behind, String.append_assoc, String.append_empty]

theorem exists_joined_cons_eq (separator : String) (c : Clause) (rest : List Clause) :
    ∃ others, joined separator (c :: rest) = c.text ++ others := by
  cases rest with
  | nil => exact ⟨"", by rw [joined, String.append_empty]⟩
  | cons d rest => exact ⟨_, by rw [joined, String.append_assoc]; nofun⟩

end Clause

/-- A clause starts with a path behind the parentheses that open its joins. -/
theorem Criteria.exists_toList_text_eq {a : Aliases} {c : Criteria} {clause : Clause}
    (h : c.clause? a = .ok (some clause)) :
    ∃ n rest, clause.text.toList = List.replicate n '(' ++ 'c' :: rest := by
  induction c generalizing clause with
  | leaf l =>
    cases hm : l.isMarker with
    | true =>
      rw [clause?_marker hm] at h
      cases h
    | false =>
      rw [clause?_leaf hm] at h
      obtain ⟨_, hclause, heq⟩ := Result.map_eq_ok_iff.1 h
      cases heq
      obtain ⟨symbol, operand, -, -, -, rfl⟩ := Leaf.clause_eq_ok_iff.1 hclause
      refine ⟨0, ?_⟩
      rw [Clause.text_comparison, Leaf.storedPath]
      cases l.parent with
      | none => exact ⟨_, by rw [String.append_assoc, String.toList_append]; rfl⟩
      | some parent => exact ⟨_, by simp only [String.append_assoc, String.toList_append]; rfl⟩
  | join op terms parent ih =>
    obtain ⟨parts, hparts, hresult⟩ := clause?_join_eq_ok_iff.1 h
    cases parts with
    | nil => cases hresult
    | cons first others =>
      cases hresult
      obtain ⟨t, ht, hfirst⟩ := exists_of_mem_clauses hparts (List.mem_cons_self ..)
      obtain ⟨n, rest, htext⟩ := ih t ht hfirst
      obtain ⟨behind, hjoined⟩ :=
        Clause.exists_joined_cons_eq (" " ++ op.symbol.text ++ " ") first others
      refine ⟨n + 1, rest ++ (behind ++ ")").toList, ?_⟩
      rw [Clause.text, hjoined]
      simp only [String.toList_append, htext, List.replicate_succ, List.cons_append, List.append_assoc]
      rfl

namespace Query

/-- A query is the search or the count of criteria in a partition, and selects the given fields. -/
inductive Searches (s : Schema) (partition : String) (criteria : Option Criteria) :
    String → Query → Prop where
  | find {options : SearchOptions} {q : Query} : find s partition criteria options = .ok q →
      Searches s partition criteria (selection s.aliases options.fields) q
  | counting {q : Query} : counting s partition criteria = .ok q →
      Searches s partition criteria "COUNT(1)" q

/-- The text up to the partition. -/
def opening (s : Schema) (select partition : String) : String :=
  "SELECT " ++ select ++ " FROM c WHERE c." ++ s.partitionKeyName ++ " = " ++ Literal.quote partition

/-- The guard, where the criteria ask for it. -/
def guardText : Option Criteria → String
  | some c => if c.references Reserved.isDeleted then " AND " ++ notDeletedGuard else ""
  | none => ""

/-- The leaves of criteria, where there are any. -/
def leavesOf : Option Criteria → List Leaf
  | some c => c.leaves
  | none => []

/-- What criteria compile to, where there are any. -/
def clauseOf? (a : Aliases) : Option Criteria → Result (Option Clause)
  | some c => c.clause? a
  | none => .ok none

/-- The comparisons in the text of a search, from left to right: those of the leaves that have one. -/
theorem comparisonsOf_clauseOf? {a : Aliases} {criteria : Option Criteria}
    {clause : Option Clause} (h : clauseOf? a criteria = .ok clause) :
    Criteria.comparisonsOf clause = (leavesOf criteria).filterMap (Leaf.comparison? a) := by
  cases criteria with
  | none =>
    cases h
    rfl
  | some c => exact Criteria.comparisons_clause? h

/-- A clause as one more condition. -/
def clauseText : Option Clause → String
  | some clause => " AND " ++ clause.text
  | none => ""

theorem conditions_eq_ok_iff {a : Aliases} {criteria : Option Criteria} {text : String} :
    conditions a criteria = .ok text ↔
      ∃ clause, clauseOf? a criteria = .ok clause ∧ text = guardText criteria ++ clauseText clause := by
  cases criteria with
  | none =>
    constructor
    · intro h
      cases h
      exact ⟨none, rfl, rfl⟩
    · intro h
      obtain ⟨clause, h, rfl⟩ := h
      cases h
      rfl
  | some c =>
    rw [conditions, Result.bind_eq_ok_iff]
    refine exists_congr fun clause => and_congr_right fun _ => ?_
    cases clause with
    | none =>
      rw [clauseText, String.append_empty]
      exact ⟨fun h => (Except.ok.inj h).symm, fun h => congrArg Except.ok h.symm⟩
    | some clause =>
      rw [clauseText, ← String.append_assoc]
      exact ⟨fun h => (Except.ok.inj h).symm, fun h => congrArg Except.ok h.symm⟩

/-- A query of one partition exists where its criteria compile, and is determined by them. -/
theorem inPartition_eq_ok_iff {s : Schema} {select partition : String} {criteria : Option Criteria}
    {q : Query} :
    inPartition s select partition criteria = .ok q ↔
      ∃ clause, clauseOf? s.aliases criteria = .ok clause ∧
        q = { text := opening s select partition ++ (guardText criteria ++ clauseText clause)
              partitionValue := some partition
              partitionKey := some s.partitionKeyName
              filter := criteria.map (Criteria.mapNames s.aliases.storedName) } := by
  simp only [inPartition, Result.bind_eq_ok_iff, conditions_eq_ok_iff]
  constructor
  · intro h
    obtain ⟨_, ⟨clause, hclause, rfl⟩, h⟩ := h
    exact ⟨clause, hclause, (Except.ok.inj h).symm⟩
  · intro h
    obtain ⟨clause, hclause, rfl⟩ := h
    exact ⟨_, ⟨clause, hclause, rfl⟩, rfl⟩

/-- The window of a search, where it has one. -/
def windowText (q : Query) : String :=
  match q.skip, q.limit with
  | some skip, some limit => " OFFSET " ++ toString skip ++ " LIMIT " ++ toString limit
  | _, _ => ""

/-- What closes the text of a search: its order and its window. -/
def closingText (q : Query) : String := orderText q.sorting ++ windowText q

/-- Behind the conditions the text ends, or goes on with a keyword. -/
theorem closingText_eq (q : Query) : closingText q = "" ∨ ∃ rest, closingText q = " O" ++ rest := by
  have hoffset : " OFFSET " = " O" ++ "FFSET " := rfl
  have horder : " ORDER BY c." = " O" ++ "RDER BY c." := rfl
  unfold closingText
  cases q.sorting with
  | none =>
    rw [orderText, String.empty_append, windowText]
    split
    · rw [hoffset]
      simp only [String.append_assoc]
      exact .inr ⟨_, rfl⟩
    · exact .inl rfl
  | some sort =>
    rw [orderText, horder]
    simp only [String.append_assoc]
    exact .inr ⟨_, rfl⟩

/-- The two halves of a search. -/
theorem Searches.layout {s : Schema} {partition select : String} {criteria : Option Criteria}
    {q : Query} (h : Searches s partition criteria select q) :
    ∃ clause, clauseOf? s.aliases criteria = .ok clause ∧
      q.text = opening s select partition ++ (guardText criteria ++ clauseText clause) ++ closingText q ∧
      q.filter = criteria.map (Criteria.mapNames s.aliases.storedName) := by
  cases h with
  | find h =>
    obtain ⟨base, hbase, h⟩ := Result.bind_eq_ok_iff.1 h
    obtain ⟨clause, hclause, rfl⟩ := inPartition_eq_ok_iff.1 hbase
    cases h
    refine ⟨clause, hclause, ?_, rfl⟩
    simp only [closingText, windowText, String.append_assoc]
  | counting h =>
    obtain ⟨base, hbase, h⟩ := Result.bind_eq_ok_iff.1 h
    obtain ⟨clause, hclause, rfl⟩ := inPartition_eq_ok_iff.1 hbase
    cases h
    refine ⟨clause, hclause, ?_, rfl⟩
    simp only [closingText, windowText, orderText, String.append_empty]

end Query
end DocumentStore
