import DocumentStore.Proofs.Criteria.Markers
import DocumentStore.Proofs.Criteria.Pruning
import DocumentStore.Proofs.Criteria.Relations
import DocumentStore.Proofs.Query.Layout
import Mathlib.Data.List.Forall2
import Mathlib.Data.Option.Basic

/-! Filter text and the evaluator agree.

Criteria are compiled on the names that callers use, and evaluated on the names that attributes are
stored under. Both drop markers, each in its own way, and come to one tree: the text writes it down
(`Writes`), and the evaluator gives its truth value (`filterText_agrees`). Compiling looks at every
leaf, so criteria that compile hold no fault that the evaluator could pass over. -/
namespace DocumentStore

/-- An operator of leaves that query text has never fails on the lists that compile. -/
theorem Operator.exists_holds_eq_ok {op : Operator} {symbol : Symbol} {operand : Term}
    (hop : op.isRelation = true) (hsymbol : op.symbol? = some symbol)
    (hlist : op = .member → operand.isArray = true ∧ operand.elements ≠ []) (left : Comparable) :
    ∃ b, op.holds left operand = .ok b := by
  cases op with
  | member =>
    obtain ⟨harray, hne⟩ := hlist rfl
    have hnonempty : (operand.isArray && !operand.elements.isEmpty) = true := by
      rw [harray, Bool.true_and, Bool.not_eq_true', List.isEmpty_eq_false_iff]
      exact hne
    exact ⟨_, if_pos hnonempty⟩
  | and | or | not | contains => cases hop
  | ne | between => cases hsymbol
  | eq | lt | lte | gt | gte => exact ⟨_, rfl⟩

namespace Leaf

/-- A leaf that compiles and has an operator of leaves never fails, whatever the item. -/
theorem holds_eq_verdict {a : Aliases} {l : Leaf} {clause : Clause} (hop : l.op.isRelation = true)
    (h : l.clause a = .ok clause) (item : Item) :
    (l.renamed a.storedName).holds item = .ok ((l.renamed a.storedName).verdict item) := by
  obtain ⟨symbol, operand, hsymbol, hoperand, hlist, -⟩ := clause_eq_ok_iff.1 h
  suffices ∃ b, (l.renamed a.storedName).holds item = .ok b by
    obtain ⟨b, hb⟩ := this
    rw [verdict, hb]
  have hoperand' : (l.renamed a.storedName).operand = some operand := hoperand
  have hholds (left : Comparable) : ∃ b, (l.renamed a.storedName).op.holds left operand = .ok b :=
    Operator.exists_holds_eq_ok hop hsymbol hlist left
  unfold holds
  rw [hoperand']
  cases operand with
  | null => cases (l.renamed a.storedName).op <;> exact ⟨_, rfl⟩
  | _ =>
    cases item.lookup? (l.renamed a.storedName).path with
    | none => exact ⟨_, rfl⟩
    | some v => exact hholds (.ofValue v)

/-- In query text a leaf names the path that the evaluator reads it by. -/
theorem storedPath_eq (a : Aliases) (l : Leaf) :
    l.storedPath a = "c." ++ (l.renamed a.storedName).path := by
  obtain ⟨op, name, operand, parent⟩ := l
  cases parent with
  | none => rfl
  | some parent => simp only [storedPath, renamed, path, String.append_assoc]

end Leaf

namespace Criteria

/-- A tree compiles leaf by leaf to a clause, and has no markers and no joins of nothing. -/
inductive Compiles (a : Aliases) : Criteria → Clause → Prop
  | leaf {l : Leaf} {clause : Clause} : l.clause a = .ok clause → Compiles a (leaf l) clause
  | join {op : Connective} {terms : List Criteria} {parent : Option String} {parts : List Clause} :
      terms ≠ [] → List.Forall₂ (Compiles a) terms parts →
      Compiles a (join op terms parent) (.join op parts)

/-- What a tree compiles to is what is left of it without its markers compiles to. -/
theorem rel_compiles_pruned {a : Aliases} {c : Criteria} {result : Option Clause}
    (h : c.clause? a = .ok result) : Option.Rel (Compiles a) c.pruned result := by
  induction c generalizing result with
  | leaf l =>
    cases hm : l.isMarker with
    | true =>
      rw [clause?_marker hm] at h
      cases h
      rw [pruned, hm]
      exact .none
    | false =>
      rw [clause?_leaf hm] at h
      obtain ⟨clause, hclause, rfl⟩ := Result.map_eq_ok_iff.1 h
      rw [pruned, hm]
      exact .some (.leaf hclause)
  | join op terms parent ih =>
    obtain ⟨parts, hparts, rfl⟩ := clause?_join_eq_ok_iff.1 h
    have hterms : List.Forall₂ (Compiles a) (allPruned terms) parts := by
      clear h
      induction terms generalizing parts with
      | nil =>
        cases hparts
        exact .nil
      | cons t rest ihr =>
        obtain ⟨first, others, hfirst, hothers, rfl⟩ := clauses_cons_eq_ok_iff.1 hparts
        have hhead := ih t (List.mem_cons_self ..) hfirst
        have htail := ihr (fun s hs => ih s (List.mem_cons_of_mem t hs)) others hothers
        rw [allPruned]
        generalize t.pruned = kept at hhead ⊢
        cases hhead with
        | none => exact htail
        | some hcompiles => exact .cons hcompiles htail
    rw [pruned]
    generalize allPruned terms = kept at hterms ⊢
    cases hterms with
    | nil => exact .none
    | cons hfirst hrest => exact .some (.join (List.cons_ne_nil _ _) (.cons hfirst hrest))

/-- A clause writes a tree down: joins part by part, and leaves as comparisons of the path that they
are read by. -/
inductive Writes : Criteria → Clause → Prop
  | leaf {l : Leaf} {symbol : Symbol} {operand : Term} : l.op.symbol? = some symbol →
      l.operand = some operand → Writes (leaf l) (.comparison ("c." ++ l.path) symbol operand)
  | join {op : Connective} {terms : List Criteria} {parent : Option String} {parts : List Clause} :
      List.Forall₂ Writes terms parts → Writes (join op terms parent) (.join op parts)

/-- A clause writes down the tree that compiles to it, on the names that attributes are stored under. -/
theorem Compiles.writes {a : Aliases} {c : Criteria} {clause : Clause} (h : Compiles a c clause) :
    (c.mapNames a.storedName).Writes clause := by
  induction c generalizing clause with
  | leaf l =>
    cases h with
    | leaf hclause =>
      obtain ⟨symbol, operand, hsymbol, hoperand, -, rfl⟩ := Leaf.clause_eq_ok_iff.1 hclause
      rw [Leaf.storedPath_eq]
      exact .leaf hsymbol hoperand
  | join op terms parent ih =>
    cases h with
    | @join _ _ _ parts _ hparts =>
      rw [mapNames, mapAllNames_eq_map]
      refine .join (List.forall₂_map_left_iff.2 ?_)
      exact ((List.forall₂_and_left terms parts).2 ⟨ih, hparts⟩).imp fun _ _ hpart => hpart.1 hpart.2

/-- Renaming attributes leaves markers where they are, and no others, if the table keeps `isDeleted` to
itself. -/
theorem pruned_mapNames {a : Aliases} (ha : a.KeepsMarker) (c : Criteria) :
    (c.mapNames a.storedName).pruned = c.pruned.map (mapNames a.storedName) := by
  induction c with
  | leaf l =>
    show (leaf (l.renamed a.storedName)).pruned = _
    rw [pruned, pruned, Leaf.isMarker_renamed ha, apply_ite (Option.map _)]
    rfl
  | join op terms parent ih =>
    have hterms : allPruned (mapAllNames a.storedName terms) = mapAllNames a.storedName (allPruned terms) := by
      rw [mapAllNames_eq_map, mapAllNames_eq_map, allPruned_eq_filterMap, allPruned_eq_filterMap,
        List.filterMap_map, List.map_filterMap]
      exact List.filterMap_congr ih
    rw [mapNames, pruned, pruned, hterms, mapAllNames_eq_map, List.isEmpty_map,
      apply_ite (Option.map _), Option.map_some, mapNames, mapAllNames_eq_map]
    rfl

/-- What a tree compiles to writes down what is left of it without its markers. -/
theorem rel_pruned_clause? {a : Aliases} (ha : a.KeepsMarker) {c : Criteria} {result : Option Clause}
    (h : c.clause? a = .ok result) : Option.Rel Writes (c.mapNames a.storedName).pruned result := by
  rw [pruned_mapNames ha]
  have hrel := rel_compiles_pruned h
  generalize c.pruned = kept at hrel
  cases hrel with
  | none => exact .none
  | some hcompiles => exact .some hcompiles.writes

/-- Nothing is left of the renamed tree exactly if the leaves were markers before. -/
theorem pruned_mapNames_eq_none_iff {a : Aliases} (ha : a.KeepsMarker) (c : Criteria) :
    (c.mapNames a.storedName).pruned = none ↔ ∀ l ∈ c.leaves, l.isMarker = true := by
  rw [pruned_mapNames ha, Option.map_eq_none_iff, pruned_eq_none_iff]

/-- Where a tree compiles, no leaf of the renamed tree fails, markers aside. -/
theorem holds_of_clause? {a : Aliases} (ha : a.KeepsMarker) {c : Criteria} (hops : c.Relations)
    {result : Option Clause} (h : c.clause? a = .ok result) (item : Item) :
    ∀ l ∈ (c.mapNames a.storedName).leaves, l.isMarker = false →
      l.holds item = .ok (l.verdict item) := by
  intro l hl hm
  rw [leaves_mapNames] at hl
  obtain ⟨l', hl', rfl⟩ := List.mem_map.1 hl
  rw [Leaf.isMarker_renamed ha] at hm
  obtain ⟨clause, hclause⟩ := clause_of_mem_leaves h hl' hm
  exact Leaf.holds_eq_verdict (hops l' hl') hclause item

/-! ### The filter text -/

/-- A clause is not blank. -/
theorem text_ne_empty {a : Aliases} {c : Criteria} {clause : Clause}
    (h : c.clause? a = .ok (some clause)) : clause.text ≠ "" := by
  intro hempty
  obtain ⟨n, rest, htext⟩ := exists_toList_text_eq h
  rw [hempty] at htext
  cases n <;> cases htext

/-- The filter text is that of the clause. -/
theorem filterText_eq_ok_iff {a : Aliases} {c : Criteria} {text : String} :
    c.filterText a = .ok text ↔
      ∃ result, c.clause? a = .ok result ∧ text = (result.map Clause.text).getD "" := by
  rw [filterText, Result.bind_eq_ok_iff]
  refine exists_congr fun result => and_congr_right fun _ => ?_
  cases result with
  | none => exact ⟨fun h => (Except.ok.inj h).symm, fun h => congrArg Except.ok h.symm⟩
  | some clause => exact ⟨fun h => (Except.ok.inj h).symm, fun h => congrArg Except.ok h.symm⟩

/-- **Where criteria have filter text, the evaluator never fails on them. The text is empty exactly if
all leaves are markers, and exactly if the evaluator finds nothing to tell of any item; otherwise the
text writes down the tree without markers, and the evaluator gives the truth value of that tree.** -/
theorem filterText_agrees {a : Aliases} (ha : a.KeepsMarker) {c : Criteria}
    (hops : c.Relations) {text : String} (h : c.filterText a = .ok text) :
    (∀ item, ∃ truth, (c.mapNames a.storedName).truth? item = .ok truth) ∧
    (text = "" ↔ ∀ l ∈ c.leaves, l.isMarker = true) ∧
    (text = "" ↔ ∀ item, (c.mapNames a.storedName).truth? item = .ok none) ∧
    (text ≠ "" → ∃ kept clause, (c.mapNames a.storedName).pruned = some kept ∧
      kept.Writes clause ∧ text = clause.text ∧
      (∀ l ∈ kept.leaves, ∀ item, l.holds item = .ok (l.verdict item)) ∧
      ∀ item, (c.mapNames a.storedName).truth? item = .ok (some (kept.value (·.verdict item)))) := by
  obtain ⟨result, hresult, rfl⟩ := filterText_eq_ok_iff.1 h
  have hrel := rel_pruned_clause? ha hresult
  have htruth := fun item => truth?_eq_value_pruned (holds_of_clause? ha hops hresult item)
  have hempty : (result.map Clause.text).getD "" = "" ↔ (c.mapNames a.storedName).pruned = none := by
    generalize (c.mapNames a.storedName).pruned = left at hrel
    cases hrel with
    | none => exact ⟨fun _ => rfl, fun _ => rfl⟩
    | some hwrites => exact ⟨fun h => absurd h (text_ne_empty hresult), nofun⟩
  refine ⟨fun item => ⟨_, htruth item⟩, ?_, ?_, fun hne => ?_⟩
  · rw [hempty, pruned_mapNames_eq_none_iff ha]
  · rw [hempty]
    constructor
    · intro hnone item
      rw [htruth item, hnone]
      rfl
    · intro hblank
      exact Option.map_eq_none_iff.1 (Except.ok.inj ((htruth .empty).symm.trans (hblank .empty)))
  · cases hkept : (c.mapNames a.storedName).pruned with
    | none => exact absurd (hempty.2 hkept) hne
    | some kept =>
      rw [hkept] at hrel
      cases hrel with
      | @some _ clause hwrites =>
        refine ⟨kept, clause, rfl, hwrites, rfl, fun l hl item => ?_, fun item => ?_⟩
        · obtain ⟨hmem, hm⟩ := mem_leaves_of_pruned hkept hl
          exact holds_of_clause? ha hops hresult item l hmem hm
        · rw [htruth item, hkept]
          rfl

/-- Markers beside and below other leaves, and joins of markers alone. -/
def nestedMarkers : Criteria :=
  .join .and [
    .join .or [.notDeleted, .join .and [.notDeleted]],
    .leaf { op := .eq, name := "t", operand := some (.string "x") },
    .join .or [.leaf { op := .member, name := "n", operand := some (.integers [1, 2]) }, .notDeleted]]

theorem filterText_agrees_nestedMarkers : ∃ kept clause,
    ((nestedMarkers.mapNames (Aliases.ofList [("t", "title")]).storedName).pruned = some kept ∧
      kept.Writes clause ∧ "(c.title = 'x' AND (c.n IN (1, 2)))" = clause.text) ∧
    ∀ item, (nestedMarkers.mapNames (Aliases.ofList [("t", "title")]).storedName).truth? item =
      .ok (some (kept.value (·.verdict item))) := by
  have hkeeps : (Aliases.ofList [("t", "title")]).KeepsMarker := by decide
  have hops : nestedMarkers.Relations := by
    unfold Relations
    decide
  have htext : nestedMarkers.filterText (Aliases.ofList [("t", "title")]) =
      .ok "(c.title = 'x' AND (c.n IN (1, 2)))" := rfl
  obtain ⟨-, -, -, hkept⟩ := filterText_agrees hkeeps hops htext
  obtain ⟨kept, clause, hpruned, hwrites, hclause, -, htruth⟩ := hkept (by decide)
  exact ⟨kept, clause, ⟨hpruned, hwrites, hclause⟩, htruth⟩

end Criteria
end DocumentStore
