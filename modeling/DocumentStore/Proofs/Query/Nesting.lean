import DocumentStore.Proofs.Filter.Agreement
import DocumentStore.Proofs.Query.Operands

/-! Filter text has one reading.

Clauses are told apart by their texts, as far as their values go (`Clause.Legible.tellsApart`): a
comparison starts with a path and a join with a parenthesis, the first separator of a join names its
connective, and a join of one part, which has none, has the value of that part. Two trees may well have
one text, where markers drop out of one of them or paths are divided otherwise, but the evaluator then
gives one answer for both (`Criteria.admits_of_filterText_eq`). -/
namespace DocumentStore

/-! ### The value of a clause -/

/-- The truth value of a join by those of its parts: And asks for all of them, Or for one. -/
def Connective.of : Connective → List Bool → Bool
  | and, values => values.all id
  | or, values => values.any id

theorem Connective.of_singleton (op : Connective) (b : Bool) : op.of [b] = b := by
  cases op <;> simp [of]

namespace Clause

mutual
/-- The truth value of a clause by that of its comparisons. -/
def value (verdict : Comparison → Bool) : Clause → Bool
  | comparison path symbol operand => verdict ⟨path, symbol, operand⟩
  | join op parts => op.of (values verdict parts)
def values (verdict : Comparison → Bool) : List Clause → List Bool
  | [] => []
  | c :: rest => c.value verdict :: values verdict rest
end

theorem values_eq_map (verdict : Comparison → Bool) (cs : List Clause) :
    values verdict cs = cs.map (value verdict) := by
  induction cs with
  | nil => rfl
  | cons c rest ih => rw [values, ih, List.map_cons]

theorem value_join (verdict : Comparison → Bool) (op : Connective) (parts : List Clause) :
    (join op parts).value verdict = op.of (parts.map (value verdict)) := by
  rw [value, values_eq_map]

end Clause

/-- The operator that query text has a symbol for. -/
def Symbol.operator : Symbol → Operator
  | and => .and
  | or => .or
  | member => .member
  | eq => .eq
  | lt => .lt
  | lte => .lte
  | gt => .gt
  | gte => .gte

theorem Operator.eq_of_symbol? {op : Operator} {symbol : Symbol} (h : op.symbol? = some symbol) :
    op = symbol.operator := by
  cases op <;> cases h <;> rfl

/-- What a comparison says about an item. Behind the two characters `c.` its path names the attribute. -/
def Comparison.verdict (x : Comparison) (item : Item) : Bool :=
  Leaf.verdict { op := x.symbol.operator, name := String.ofList (x.path.toList.drop 2),
                 operand := some x.operand } item

namespace Criteria

theorem value_join (verdict : Leaf → Bool) (op : Connective) (terms : List Criteria)
    (parent : Option String) :
    (join op terms parent).value verdict = op.of (terms.map (value verdict)) := by
  cases op with
  | and => rw [value, allValue_eq_all, Connective.of, List.all_map]; rfl
  | or => rw [value, anyValue_eq_any, Connective.of, List.any_map]; rfl

/-- A clause has the value of the tree that it writes down. -/
theorem Writes.value_eq {c : Criteria} {clause : Clause} (h : c.Writes clause) (item : Item) :
    c.value (·.verdict item) = clause.value (·.verdict item) := by
  induction c generalizing clause with
  | leaf l =>
    cases h with
    | @leaf _ symbol operand hsymbol hoperand =>
      have hpath : String.ofList (("c." ++ l.path).toList.drop 2) = l.path := by
        rw [String.toList_append]
        exact String.ofList_toList
      rw [value, Clause.value, Comparison.verdict, hpath, Leaf.verdict, Leaf.verdict, Leaf.holds,
        Leaf.holds, hoperand, Operator.eq_of_symbol? hsymbol]
      rfl
  | join op terms parent ih =>
    cases h with
    | @join _ _ _ parts hparts =>
      rw [value_join, Clause.value_join]
      congr 1
      rw [← List.forall₂_eq_eq_eq, List.forall₂_map_left_iff, List.forall₂_map_right_iff]
      exact ((List.forall₂_and_left terms parts).2 ⟨ih, hparts⟩).imp fun _ _ hpart => hpart.1 hpart.2

end Criteria

/-! ### Clauses told apart -/

/-- A comparison as leaves give it: its path starts as attributes do and is not broken, its literal
tells all of the operand, and membership alone is asked of a list, which is not empty. -/
structure Comparison.Legible (x : Comparison) : Prop where
  starts : ∃ rest, x.path.toList = 'c' :: rest
  unbroken : ' ' ∉ x.path.toList
  operand : x.operand.Legible
  list : x.operand.isArray = true ↔ x.symbol = .member
  nonempty : x.symbol = .member → x.operand.elements ≠ []

/-- The operand as it stands behind the symbol and a blank: a list between parentheses. -/
def Comparison.operandChars (x : Comparison) : List Char :=
  match x.symbol with
  | .member => '(' :: ((Literal.text x.operand).toList ++ [')'])
  | _ => (Literal.text x.operand).toList

/-- The comparisons of a clause are legible, and no join is without parts. -/
inductive Clause.Legible : Clause → Prop
  | comparison {path : String} {symbol : Symbol} {operand : Term} :
      Comparison.Legible ⟨path, symbol, operand⟩ → Legible (.comparison path symbol operand)
  | join {op : Connective} {parts : List Clause} :
      parts ≠ [] → (∀ part ∈ parts, Legible part) → Legible (.join op parts)

namespace Clause

theorem toList_text_comparison (x : Comparison) (rest : List Char) :
    (comparison x.path x.symbol x.operand).text.toList ++ rest =
      x.path.toList ++ ' ' :: (x.symbol.text.toList ++ ' ' :: (x.operandChars ++ rest)) := by
  obtain ⟨path, symbol, operand⟩ := x
  rw [text_comparison]
  cases symbol <;> simp [Symbol.before, Symbol.behind, Symbol.text, Comparison.operandChars]

theorem toList_text_join (op : Connective) (parts : List Clause) (rest : List Char) :
    (join op parts).text.toList ++ rest =
      '(' :: (((separator op).intercalate (parts.map text)).toList ++ ')' :: rest) := by
  rw [text, joined_eq_intercalate]
  simp [separator]

theorem separates_separator (op : Connective) : Separates (separator op) := by
  cases op <;> exact ⟨fun _ => .inl rfl, nofun⟩

theorem separator_eq_of_append {op op' : Connective} {rest rest' : List Char}
    (h : (separator op).toList ++ rest = (separator op').toList ++ rest') :
    separator op = separator op' ∧ rest = rest' := by
  cases op <;> cases op'
  · exact ⟨rfl, List.append_cancel_left h⟩
  · cases h
  · cases h
  · exact ⟨rfl, List.append_cancel_left h⟩

theorem separator_injective {op op' : Connective} (h : separator op = separator op') : op = op' := by
  revert h
  cases op <;> cases op' <;> decide

/-- The clauses have one value, whatever their comparisons say. -/
def Alike (x x' : Clause) : Prop := ∀ verdict, x.value verdict = x'.value verdict

end Clause

theorem Symbol.blank_not_mem_text (symbol : Symbol) : ' ' ∉ symbol.text.toList := by
  cases symbol <;> decide

theorem Symbol.text_injective {symbol symbol' : Symbol}
    (h : symbol.text.toList = symbol'.text.toList) : symbol = symbol' := by
  revert h
  cases symbol <;> cases symbol' <;> decide

namespace Comparison

theorem operandChars_eq_of_ne_member {x : Comparison} (h : x.symbol ≠ .member) :
    x.operandChars = (Literal.text x.operand).toList := by
  unfold operandChars
  split
  · exact absurd ‹_› h
  · rfl

theorem operandChars_member {x : Comparison} (h : x.symbol = .member) (rest : List Char) :
    x.operandChars ++ rest = '(' :: ((Literal.text x.operand).toList ++ ')' :: rest) := by
  rw [operandChars, h]
  simp

/-- Operands are told apart behind a symbol. -/
theorem Legible.operand_eq {x x' : Comparison} (h : x.Legible) (h' : x'.Legible)
    (hsymbol : x.symbol = x'.symbol) {rest rest' : List Char} (hrest : Text.Ends IsStop rest)
    (hrest' : Text.Ends IsStop rest') (heq : x.operandChars ++ rest = x'.operandChars ++ rest') :
    x.operand = x'.operand ∧ rest = rest' := by
  by_cases hm : x.symbol = .member
  · have hm' : x'.symbol = .member := hsymbol ▸ hm
    rw [operandChars_member hm, operandChars_member hm'] at heq
    exact h.operand.eq_of_listed_eq h'.operand (h.list.2 hm) (h'.list.2 hm') (h.nonempty hm)
      (h'.nonempty hm') (List.cons.inj heq).2
  · have hm' : x'.symbol ≠ .member := hsymbol ▸ hm
    rw [operandChars_eq_of_ne_member hm, operandChars_eq_of_ne_member hm'] at heq
    have hscalar : x.operand.isArray = false := Bool.eq_false_iff.2 fun hlist => hm (h.list.1 hlist)
    have hscalar' : x'.operand.isArray = false :=
      Bool.eq_false_iff.2 fun hlist => hm' (h'.list.1 hlist)
    exact h.operand.tellsApart h'.operand hscalar hscalar' hrest hrest' heq

end Comparison

namespace Clause

theorem eq_of_text_comparison_eq {x x' : Comparison} (h : x.Legible) (h' : x'.Legible)
    {rest rest' : List Char} (hrest : Text.Ends IsStop rest) (hrest' : Text.Ends IsStop rest')
    (heq : (comparison x.path x.symbol x.operand).text.toList ++ rest =
      (comparison x'.path x'.symbol x'.operand).text.toList ++ rest') : x = x' ∧ rest = rest' := by
  rw [toList_text_comparison, toList_text_comparison] at heq
  obtain ⟨hpath, heq⟩ := Text.append_inj_of_blank h.unbroken h'.unbroken heq
  obtain ⟨hsymbol, heq⟩ :=
    Text.append_inj_of_blank x.symbol.blank_not_mem_text x'.symbol.blank_not_mem_text heq
  have hsymbol := Symbol.text_injective hsymbol
  obtain ⟨hoperand, hsame⟩ := h.operand_eq h' hsymbol hrest hrest' heq
  exact ⟨(Comparison.mk.injEq ..).mpr ⟨String.toList_inj.1 hpath, hsymbol, hoperand⟩, hsame⟩

/-- A comparison does not start as a join does. -/
theorem text_comparison_ne_join {x : Comparison} (h : x.Legible) (op : Connective)
    (parts : List Clause) (rest rest' : List Char) :
    (comparison x.path x.symbol x.operand).text.toList ++ rest ≠
      (join op parts).text.toList ++ rest' := by
  obtain ⟨name, hpath⟩ := h.starts
  rw [toList_text_comparison, toList_text_join, hpath]
  nofun

/-- **Clauses whose texts begin one text have one value, and what follows them is the same.** -/
theorem Legible.tellsApart {x x' : Clause} (h : x.Legible) (h' : x'.Legible) :
    TellsApart Alike text x x' := by
  induction x generalizing x' with
  | comparison path symbol operand =>
    intro rest rest' hrest hrest' heq
    cases h with
    | comparison hx =>
      cases h' with
      | comparison hx' =>
        obtain ⟨hsame, hrest⟩ := eq_of_text_comparison_eq hx hx' hrest hrest' heq
        cases hsame
        exact ⟨fun _ => rfl, hrest⟩
      | join => exact absurd heq (text_comparison_ne_join hx _ _ _ _)
  | join op parts ih =>
    intro rest rest' hrest hrest' heq
    cases h with
    | join hne hparts =>
      cases h' with
      | comparison hx' => exact absurd heq.symm (text_comparison_ne_join hx' _ _ _ _)
      | @join op' parts' hne' hparts' =>
        rw [toList_text_join, toList_text_join] at heq
        obtain ⟨halike, hsep, hrest⟩ := forall₂_of_intercalate_eq (separates_separator op)
          (separates_separator op') separator_eq_of_append hne hne'
          (fun x hx x' hx' => ih x hx (hparts x hx) (hparts' x' hx')) (List.cons.inj heq).2
        refine ⟨fun verdict => ?_, hrest⟩
        have hvalues : parts.map (value verdict) = parts'.map (value verdict) := by
          rw [← List.forall₂_eq_eq_eq, List.forall₂_map_left_iff, List.forall₂_map_right_iff]
          exact halike.imp fun _ _ hpart => hpart verdict
        rw [value_join, value_join, ← hvalues]
        obtain hsame | hone := hsep
        · rw [separator_injective hsame]
        · obtain ⟨part, rfl⟩ := List.length_eq_one_iff.1 hone
          rw [List.map_singleton, Connective.of_singleton, Connective.of_singleton]

end Clause

/-! ### Criteria told apart by their answers -/

/-- A leaf with an operator of leaves, a path without blanks, and an operand whose literal tells all of
it, a list for membership alone. -/
structure Leaf.Legible (a : Aliases) (l : Leaf) : Prop where
  relation : l.op.isRelation = true
  path : ' ' ∉ (l.storedPath a).toList
  operand : ∀ t ∈ l.operand, t.Legible
  list : ∀ t ∈ l.operand, t.isArray = true → l.op = .member

instance (a : Aliases) : DecidablePred (Leaf.Legible a) := fun l =>
  decidable_of_iff ((l.op.isRelation = true ∧ ' ' ∉ (l.storedPath a).toList) ∧
      (∀ t ∈ l.operand, t.Legible) ∧ ∀ t ∈ l.operand, t.isArray = true → l.op = .member)
    ⟨fun ⟨⟨hop, hpath⟩, hoperand, hlist⟩ => ⟨hop, hpath, hoperand, hlist⟩,
      fun h => ⟨⟨h.relation, h.path⟩, h.operand, h.list⟩⟩

theorem Leaf.toList_storedPath (a : Aliases) (l : Leaf) :
    ∃ rest, (l.storedPath a).toList = 'c' :: rest := by
  rw [storedPath_eq, String.toList_append]
  exact ⟨_, rfl⟩

theorem Leaf.Legible.clause {a : Aliases} {l : Leaf} (h : l.Legible a) {x : Clause}
    (hx : l.clause a = .ok x) : x.Legible := by
  obtain ⟨symbol, operand, hsymbol, hoperand, hlist, rfl⟩ := clause_eq_ok_iff.1 hx
  have hmember : symbol = .member ↔ l.op = .member := by
    rw [Operator.eq_of_symbol? hsymbol]
    cases symbol <;> decide
  exact .comparison {
    starts := l.toList_storedPath a
    unbroken := h.path
    operand := h.operand operand hoperand
    list := ⟨fun harray => hmember.2 (h.list operand hoperand harray),
      fun hop => (hlist (hmember.1 hop)).1⟩
    nonempty := fun hop => (hlist (hmember.1 hop)).2 }

namespace Criteria

/-- The leaves of the tree are legible. -/
def Legible (a : Aliases) (c : Criteria) : Prop := ∀ l ∈ c.leaves, l.Legible a

instance (a : Aliases) : DecidablePred (Legible a) := fun c =>
  inferInstanceAs (Decidable (∀ l ∈ c.leaves, l.Legible a))

theorem Legible.clause? {a : Aliases} {c : Criteria} (h : c.Legible a) {x : Clause}
    (hx : c.clause? a = .ok (some x)) : x.Legible := by
  induction c generalizing x with
  | leaf l =>
    cases hm : l.isMarker with
    | true =>
      rw [clause?_marker hm] at hx
      cases hx
    | false =>
      rw [clause?_leaf hm] at hx
      obtain ⟨clause, hclause, heq⟩ := Result.map_eq_ok_iff.1 hx
      cases heq
      exact (h l (List.mem_singleton_self l)).clause hclause
  | join op terms parent ih =>
    obtain ⟨parts, hparts, heq⟩ := clause?_join_eq_ok_iff.1 hx
    split at heq
    · cases heq
    · next hempty =>
      cases heq
      refine .join (fun hnil => hempty (List.isEmpty_iff.2 hnil)) fun part hpart => ?_
      obtain ⟨t, ht, hpart⟩ := exists_of_mem_clauses hparts hpart
      exact ih t ht (fun l hl => h l (mem_leaves_join ht hl)) hpart

/-- The answer about an item where the criteria compile: the value of the clause, and true where there
is none. -/
theorem admits_of_clause? {a : Aliases} (ha : a.KeepsMarker) {c : Criteria} (hops : c.Relations)
    {result : Option Clause} (h : c.clause? a = .ok result) (item : Item) :
    (c.mapNames a.storedName).admits item =
      .ok ((result.map (Clause.value (·.verdict item))).getD true) := by
  have hrel := rel_pruned_clause? ha h
  rw [admits, truth?_eq_value_pruned (holds_of_clause? ha hops h item)]
  generalize (c.mapNames a.storedName).pruned = left at hrel
  cases hrel with
  | none => rfl
  | some hwrites =>
    rw [Option.map_some, Option.map_some, hwrites.value_eq item]
    rfl

/-- **Criteria with one filter text give one answer about every item.** -/
theorem admits_of_filterText_eq {a : Aliases} (ha : a.KeepsMarker) {c c' : Criteria}
    (hc : c.Legible a) (hc' : c'.Legible a) {text : String} (h : c.filterText a = .ok text)
    (h' : c'.filterText a = .ok text) (item : Item) :
    ∃ answer, (c.mapNames a.storedName).admits item = .ok answer ∧
      (c'.mapNames a.storedName).admits item = .ok answer := by
  obtain ⟨result, hresult, htext⟩ := filterText_eq_ok_iff.1 h
  obtain ⟨result', hresult', htext'⟩ := filterText_eq_ok_iff.1 h'
  refine ⟨_, admits_of_clause? ha (fun l hl => (hc l hl).relation) hresult item, ?_⟩
  rw [admits_of_clause? ha (fun l hl => (hc' l hl).relation) hresult' item]
  subst htext
  cases result with
  | none =>
    cases result' with
    | none => rfl
    | some x' => exact absurd htext'.symm (text_ne_empty hresult')
  | some x =>
    cases result' with
    | none => exact absurd htext' (text_ne_empty hresult)
    | some x' =>
      have hsame := congrArg (fun text : String => text.toList ++ []) htext'
      obtain ⟨halike, -⟩ :=
        (hc.clause? hresult).tellsApart (hc'.clause? hresult') Text.ends_nil Text.ends_nil hsame
      exact congrArg Except.ok (halike _).symm

/-- Strings that read like conditions, and a join of one term beside markers. -/
def forged : Criteria := .join .and [
  .leaf { op := .eq, name := "b", operand := some (.string "x' AND (c.m IN (1)"), parent := some "a" },
  .join .or [.leaf { op := .member, name := "n", operand := some (.strings [", '", ") OR ("]) },
    .notDeleted],
  .join .or [.notDeleted]]

/-- The same conditions without markers, the first path in one piece and the last join another. -/
def regrouped : Criteria := .join .and [
  .leaf { op := .eq, name := "a.b", operand := some (.string "x' AND (c.m IN (1)") },
  .join .and [.leaf { op := .member, name := "n", operand := some (.strings [", '", ") OR ("]) }]]

theorem admits_of_filterText_eq_forged :
    forged.filterText (Aliases.ofList [("n", "m")]) =
      .ok "(c.a.b = 'x\\' AND (c.m IN (1)' AND (c.m IN (', \\'', ') OR (')))" ∧
    ∀ item, ∃ answer,
      (forged.mapNames (Aliases.ofList [("n", "m")]).storedName).admits item = .ok answer ∧
      (regrouped.mapNames (Aliases.ofList [("n", "m")]).storedName).admits item = .ok answer := by
  have htext : forged.filterText (Aliases.ofList [("n", "m")]) =
      .ok "(c.a.b = 'x\\' AND (c.m IN (1)' AND (c.m IN (', \\'', ') OR (')))" := rfl
  exact ⟨htext, admits_of_filterText_eq (by decide) (by decide) (by decide) htext rfl⟩

end Criteria
end DocumentStore
