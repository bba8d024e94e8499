import DocumentStore.Proofs.Criteria.Relations
import DocumentStore.Proofs.Term.Arrays
import Mathlib.Data.List.ReduceOption

/-! The grammar of criteria, node by node.

A document is read by its nodes: the document itself and, below And and Or, the documents that they list
(`visited`). By itself a node asks for nothing (`Skipped`), is a leaf (`IsLeaf`), joins others (`Joins`) or
is faulty in one of eight ways (`Faulty`); there are no others (`hasKind`). So a document comes to the
tree that the grammar gives it (`Reads`) or to the error of its first faulty node (`FirstFault`), and what is
read of it has no leaf that the grammar does not give (`Leaf.WellRead`). -/
namespace DocumentStore
open Json (Value)

/-- What holds of a leaf that is read: an operand is a scalar, or a list that is not empty. -/
structure Leaf.WellRead (l : Leaf) : Prop where
  relation : l.op.isRelation = true
  named : l.name ≠ ""
  alone : l.parent = none
  operand : ∀ t, l.operand = some t → t.isArray = true → t.elements ≠ []

namespace Criteria

/-! ### Nodes -/

/-- The node names the operator. -/
def Names (op : Operator) (v : Value) : Prop := v.member? "op" = some (.str op.name)

/-- The node asks for nothing, whatever else it holds. -/
inductive Skipped : Value → Prop
  | null : Skipped .null
  | empty : Skipped (.obj [])
  | not {v : Value} (hop : Names .not v) : Skipped v
  | contains {v : Value} (hop : Names .contains v) : Skipped v

/-- The node is a well-formed leaf. -/
structure IsLeaf (v : Value) (l : Leaf) : Prop where
  names : Names l.op v
  relation : l.op.isRelation = true
  left : v.member? "left" = some (.str l.name)
  named : l.name ≠ ""
  right : Option.Rel (fun w t => Term.ofValue w = .ok t) (v.member? "right") l.operand
  alone : l.parent = none

/-- The node joins the terms. -/
structure Joins (v : Value) (c : Connective) (terms : List Value) : Prop where
  names : Names c.operator v
  lists : v.member? "searchTerms" = some (.arr terms)
  nonempty : terms ≠ []

/-- The node is malformed by itself, whatever the terms that it lists, and this is the error. -/
inductive Faulty : Value → Error → Prop
  | notAnObject (v : Value) (hnull : v ≠ .null) (hobject : ∀ members, v ≠ .obj members) :
    Faulty v (.parse (.notAnObject v))
  | operatorMissing (members : List (String × Value)) (hne : members ≠ [])
    (hop : (Value.obj members).member? "op" = none) : Faulty (.obj members) (.parse .operatorMissing)
  | operatorNotText (v w : Value) (hop : v.member? "op" = some w) (htext : ∀ name, w ≠ .str name) :
    Faulty v (.parse (.operatorNotText w))
  | unknownOperator (v : Value) (name : String) (hop : v.member? "op" = some (.str name))
    (hname : ∀ op : Operator, op.name ≠ name) : Faulty v (.parse (.unknownOperator name))
  | joinWithoutTerms (v : Value) (c : Connective) (hop : Names c.operator v)
    (hterms : ∀ terms, v.member? "searchTerms" ≠ some (.arr terms)) :
    Faulty v (.validation .joinWithoutTerms)
  | joinOfNoTerms (v : Value) (c : Connective) (hop : Names c.operator v)
    (hterms : v.member? "searchTerms" = some (.arr [])) : Faulty v (.validation .joinOfNoTerms)
  | missingAttribute (v : Value) (op : Operator) (hop : Names op v) (hrelation : op.isRelation = true)
    (hleft : ∀ name, v.member? "left" = some (.str name) → name = "") :
    Faulty v (.validation (.missingAttribute op))
  | operand (v : Value) (op : Operator) (hop : Names op v) (hrelation : op.isRelation = true) (name : String)
    (hleft : v.member? "left" = some (.str name)) (hne : name ≠ "") (w : Value)
    (hright : v.member? "right" = some w) (e : Error) (he : Term.ofValue w = .error e) : Faulty v e

def Malformed (v : Value) : Prop := ∃ e, Faulty v e

/-- The documents that a node lists and that are read: the terms of And and Or. -/
def nodesBelow (v : Value) : List Value :=
  match v.member? "op", v.member? "searchTerms" with
  | some (.str name), some (.arr terms) =>
    if name = Operator.and.name ∨ name = Operator.or.name then terms else []
  | _, _ => []

theorem sizeOf_lt_of_mem_nodesBelow {w : Value} (h : w ∈ nodesBelow v) : sizeOf w < sizeOf v := by
  unfold nodesBelow at h
  split at h
  · next name terms _ hterms =>
    have hw : w ∈ terms := by
      split at h
      · exact h
      · cases h
    cases v with
    | obj members =>
      have hlt := sizeOf_lt_of_mem (Entries.mem_of_find? hterms)
      have := List.sizeOf_lt_of_mem hw
      simp only [Value.arr.sizeOf_spec] at hlt
      simp only [Value.obj.sizeOf_spec]
      omega
    | _ => cases hterms
  · cases h

/-- The nodes of a document in the order that they are read in, depth first. -/
def visited (v : Value) : List Value := v :: (nodesBelow v).attach.flatMap fun w => visited w.1
termination_by sizeOf v
decreasing_by exact sizeOf_lt_of_mem_nodesBelow w.2

theorem visited_eq (v : Value) : visited v = v :: (nodesBelow v).flatMap visited := by
  rw [visited, List.flatMap_subtype (fun _ _ => rfl), List.unattach_attach]

/-- The first malformed one of the nodes has the error. -/
inductive FirstFault : List Value → Error → Prop
  | here {v : Value} {e : Error} (h : Faulty v e) (rest : List Value) : FirstFault (v :: rest) e
  | later {v : Value} {e : Error} {rest : List Value} (hv : ¬Malformed v) (h : FirstFault rest e) :
    FirstFault (v :: rest) e

/-- The tree that a well-formed document asks for, if it asks for any: a join takes the trees of its terms
in their order. -/
inductive Reads : Value → Option Criteria → Prop
  | skipped {v : Value} (h : Skipped v) : Reads v none
  | leaf {v : Value} {l : Leaf} (h : IsLeaf v l) : Reads v (some (.leaf l))
  | join {v : Value} {c : Connective} {terms : List Value} {results : List (Option Criteria)}
    (h : Joins v c terms) (hterms : List.Forall₂ Reads terms results) :
    Reads v (some (.join c results.reduceOption))

variable {v : Value} {op : Operator} {c : Connective} {terms : List Value} {l : Leaf} {e : Error}

/-! ### Kinds of nodes -/

/-- A document is of one of the four kinds. -/
inductive HasKind (v : Value) : Prop
  | skipped (h : Skipped v)
  | leaf {l : Leaf} (h : IsLeaf v l)
  | join {c : Connective} {terms : List Value} (h : Joins v c terms)
  | faulty {e : Error} (h : Faulty v e)

theorem hasKind_of_relation (hop : Names op v) (hrelation : op.isRelation = true) : HasKind v := by
  by_cases hleft : ∀ name, v.member? "left" = some (.str name) → name = ""
  · exact .faulty (.missingAttribute v op hop hrelation hleft)
  · push Not at hleft
    obtain ⟨name, hleft, hne⟩ := hleft
    cases hright : v.member? "right" with
    | none =>
      exact .leaf (l := { op, name, operand := none })
        ⟨hop, hrelation, hleft, hne, hright ▸ .none, rfl⟩
    | some w =>
      cases ht : Term.ofValue w with
      | error e => exact .faulty (.operand v op hop hrelation name hleft hne w hright e ht)
      | ok t =>
        exact .leaf (l := { op, name, operand := some t })
          ⟨hop, hrelation, hleft, hne, hright ▸ .some ht, rfl⟩

theorem hasKind_of_connective (hop : Names c.operator v) : HasKind v := by
  by_cases hterms : ∀ terms, v.member? "searchTerms" ≠ some (.arr terms)
  · exact .faulty (.joinWithoutTerms v c hop hterms)
  · push Not at hterms
    obtain ⟨terms, hterms⟩ := hterms
    cases terms with
    | nil => exact .faulty (.joinOfNoTerms v c hop hterms)
    | cons first rest => exact .join ⟨hop, hterms, List.cons_ne_nil first rest⟩

theorem hasKind_of_names (hop : Names op v) : HasKind v := by
  cases op with
  | and => exact hasKind_of_connective (c := .and) hop
  | or => exact hasKind_of_connective (c := .or) hop
  | not => exact .skipped (.not hop)
  | contains => exact .skipped (.contains hop)
  | eq | ne | lt | lte | gt | gte | member | between => exact hasKind_of_relation hop rfl

/-- **Every document is of one of the kinds.** -/
theorem hasKind (v : Value) : HasKind v := by
  cases v with
  | null => exact .skipped .null
  | obj members =>
    -- The checks in the order of the reader: whether there are members, whether they name an operator, and
    -- which one.
    by_cases hne : members = []
    · subst hne
      exact .skipped .empty
    cases hop : (Value.obj members).member? "op" with
    | none => exact .faulty (.operatorMissing members hne hop)
    | some w =>
      cases w with
      | str name =>
        by_cases hname : ∀ op : Operator, op.name ≠ name
        · exact .faulty (.unknownOperator _ name hop hname)
        · push Not at hname
          obtain ⟨op, rfl⟩ := hname
          exact hasKind_of_names hop
      | _ => exact .faulty (.operatorNotText _ _ hop fun _ => Value.noConfusion)
  | _ => exact .faulty (.notAnObject _ Value.noConfusion fun _ => Value.noConfusion)

/-! ### What a node comes to -/

theorem exists_obj_of_member? {name : String} {w : Value} (h : v.member? name = some w) :
    ∃ members, v = .obj members ∧ members ≠ [] := by
  cases v with
  | obj members =>
    refine ⟨members, rfl, ?_⟩
    rintro rfl
    cases h
  | _ => cases h

section Members
variable {members : List (String × Value)}

theorem Names.ne_nil (h : Names op (.obj members)) : members ≠ [] := by
  rintro rfl
  cases h

theorem Names.operatorOf_eq (h : Names op (.obj members)) : operatorOf members = .ok op := by
  unfold operatorOf
  rw [show Entries.find? "op" members = some (.str op.name) from h]
  dsimp only
  rw [Operator.ofName?_name]

theorem ofValue_of_operatorOf_error (hne : members ≠ []) (h : operatorOf members = .error e) :
    ofValue (.obj members) = .error e := by
  rw [ofValue]
  · rw [h]
    rfl
  · exact hne

theorem Names.ofValue_skipped (h : Names op (.obj members)) (hop : op = .not ∨ op = .contains) :
    ofValue (.obj members) = .ok none := by
  rw [ofValue]
  · rw [h.operatorOf_eq]
    obtain rfl | rfl := hop <;> rfl
  · exact h.ne_nil

theorem Names.ofValue_leaf (h : Names op (.obj members)) (hop : op.isRelation = true) :
    ofValue (.obj members) = (fun l => some (leaf l)) <$> leafOf op members := by
  rw [ofValue]
  · rw [h.operatorOf_eq]
    cases op <;> first | rfl | cases hop
  · exact h.ne_nil

theorem Names.ofValue_join (h : Names c.operator (.obj members)) :
    ofValue (.obj members) =
      termsOf members >>= fun terms => (fun ts => some (join c ts)) <$> ofValues terms := by
  have hjoin : ofValue (.obj members) = joinOf c members := by
    rw [ofValue]
    · rw [h.operatorOf_eq]
      cases c <;> rfl
    · exact h.ne_nil
  rw [hjoin, joinOf]
  split
  · next terms hterms =>
    show (ofValues terms >>= fun ts => pure (some (join c ts))) = _
    rw [hterms]
    rfl
  · next e hterms =>
    rw [hterms]
    rfl

theorem termsOf_of_not_array (h : ∀ terms, Entries.find? "searchTerms" members ≠ some (.arr terms)) :
    termsOf members = .error (.validation .joinWithoutTerms) := by
  unfold termsOf
  split
  · next hterms => exact absurd hterms (h [])
  · next terms _ hterms => exact absurd hterms (h terms)
  · rfl

theorem leafOf_of_left {name : String} (hleft : Entries.find? "left" members = some (.str name))
    (hne : name ≠ "") :
    leafOf op members = (fun operand => { op, name, operand }) <$>
      (Entries.find? "right" members).mapM Term.ofValue := by
  unfold leafOf
  rw [hleft]
  dsimp only
  rw [String.isEmpty_eq_false_iff.2 hne]
  rfl

theorem mapM_ofValue_of_rel {right : Option Value} {operand : Option Term}
    (h : Option.Rel (fun w t => Term.ofValue w = .ok t) right operand) :
    right.mapM Term.ofValue = .ok operand := by
  cases h with
  | none => rfl
  | some ht =>
    rw [Option.mapM_some, ht]
    rfl

theorem leafOf_of_no_left (hleft : ∀ name, Entries.find? "left" members = some (.str name) → name = "") :
    leafOf op members = .error (.validation (.missingAttribute op)) := by
  unfold leafOf
  dsimp only
  split
  · next name h =>
    rw [hleft name h]
    rfl
  · rfl

end Members

theorem Skipped.ofValue_eq (h : Skipped v) : ofValue v = .ok none := by
  cases h with
  | null => rw [ofValue]
  | empty => rw [ofValue]
  | not hop =>
    obtain ⟨members, rfl, -⟩ := exists_obj_of_member? hop
    exact hop.ofValue_skipped (.inl rfl)
  | contains hop =>
    obtain ⟨members, rfl, -⟩ := exists_obj_of_member? hop
    exact hop.ofValue_skipped (.inr rfl)

theorem IsLeaf.ofValue_eq (h : IsLeaf v l) : ofValue v = .ok (some (leaf l)) := by
  obtain ⟨members, rfl, -⟩ := exists_obj_of_member? h.names
  have hoperand : (Entries.find? "right" members).mapM Term.ofValue = .ok l.operand :=
    mapM_ofValue_of_rel h.right
  rw [h.names.ofValue_leaf h.relation, leafOf_of_left h.left h.named, hoperand]
  show Except.ok (some (leaf { op := l.op, name := l.name, operand := l.operand, parent := none })) = _
  rw [← h.alone]

theorem Joins.ofValue_eq (h : Joins v c terms) :
    ofValue v = (fun ts => some (join c ts)) <$> ofValues terms := by
  obtain ⟨members, rfl, -⟩ := exists_obj_of_member? h.names
  have hterms : termsOf members = .ok terms := by
    unfold termsOf
    rw [show Entries.find? "searchTerms" members = some (.arr terms) from h.lists]
    cases terms with
    | nil => exact absurd rfl h.nonempty
    | cons first rest => rfl
  rw [h.names.ofValue_join, hterms]
  rfl

theorem Faulty.ofValue_eq (h : Faulty v e) : ofValue v = .error e := by
  cases h with
  | notAnObject _ hnull hobject =>
    rw [ofValue]
    · exact hnull
    · exact hobject []
    · exact hobject
  | operatorMissing members hne hop =>
    refine ofValue_of_operatorOf_error hne ?_
    unfold operatorOf
    rw [show Entries.find? "op" members = none from hop]
  | operatorNotText _ w hop htext =>
    obtain ⟨members, rfl, hne⟩ := exists_obj_of_member? hop
    refine ofValue_of_operatorOf_error hne ?_
    unfold operatorOf
    rw [show Entries.find? "op" members = some w from hop]
    cases w with
    | str name => exact absurd rfl (htext name)
    | _ => rfl
  | unknownOperator _ name hop hname =>
    obtain ⟨members, rfl, hne⟩ := exists_obj_of_member? hop
    refine ofValue_of_operatorOf_error hne ?_
    unfold operatorOf
    rw [show Entries.find? "op" members = some (.str name) from hop]
    cases hop : Operator.ofName? name with
    | none => simp only [hop]
    | some op => exact absurd (Operator.eq_name_of_ofName? hop).symm (hname op)
  | joinWithoutTerms _ c hop hterms =>
    obtain ⟨members, rfl, -⟩ := exists_obj_of_member? hop
    rw [Names.ofValue_join hop, termsOf_of_not_array hterms]
    rfl
  | joinOfNoTerms _ c hop hterms =>
    obtain ⟨members, rfl, -⟩ := exists_obj_of_member? hop
    rw [Names.ofValue_join hop, termsOf]
    rw [show Entries.find? "searchTerms" members = some (.arr []) from hterms]
    rfl
  | missingAttribute _ op hop hrelation hleft =>
    obtain ⟨members, rfl, -⟩ := exists_obj_of_member? hop
    rw [Names.ofValue_leaf hop hrelation, leafOf_of_no_left hleft]
    rfl
  | operand _ op hop hrelation name hleft hne w hright _ he =>
    obtain ⟨members, rfl, -⟩ := exists_obj_of_member? hop
    rw [Names.ofValue_leaf hop hrelation, leafOf_of_left hleft hne,
      show Entries.find? "right" members = some w from hright, Option.mapM_some, he]
    rfl

/-! ### What is below a node -/

theorem Names.unique {op' : Operator} (h : Names op v) (h' : Names op' v) : op = op' := by
  have hname : op.name = op'.name := by simpa using h.symm.trans h'
  exact Option.some.inj (by rw [← Operator.ofName?_name op, hname, Operator.ofName?_name])

theorem isRelation_operator (c : Connective) : c.operator.isRelation = false := by cases c <;> rfl

/-- A node that joins terms is not malformed, though its terms may be. -/
theorem Joins.not_malformed (h : Joins v c terms) : ¬Malformed v := by
  rintro ⟨e, hfaulty⟩
  have hrelation {op : Operator} (hop : Names op v) : op.isRelation = false :=
    hop.unique h.names ▸ isRelation_operator c
  cases hfaulty with
  | notAnObject _ _ hobject =>
    obtain ⟨members, rfl, -⟩ := exists_obj_of_member? h.names
    exact hobject members rfl
  | operatorMissing _ _ hop => cases h.names.symm.trans hop
  | operatorNotText _ w hop htext =>
    cases h.names.symm.trans hop
    exact htext _ rfl
  | unknownOperator _ name hop hname =>
    cases h.names.symm.trans hop
    exact hname _ rfl
  | joinWithoutTerms _ _ _ hterms => exact hterms terms h.lists
  | joinOfNoTerms _ _ _ hterms =>
    cases h.lists.symm.trans hterms
    exact h.nonempty rfl
  | missingAttribute _ _ hop hop' => cases (hrelation hop).symm.trans hop'
  | operand _ _ hop hop' => cases (hrelation hop).symm.trans hop'

/-- Nothing is read below a node that names another operator than And and Or. -/
theorem nodesBelow_of_names (h : Names op v) (hand : op ≠ .and) (hor : op ≠ .or) : nodesBelow v = [] := by
  unfold nodesBelow
  split
  · next name terms hop _ =>
    rw [if_neg]
    intro hname
    obtain hname | hname := hname
    · subst hname
      exact hand (h.unique hop)
    · subst hname
      exact hor (h.unique hop)
  · rfl

theorem Skipped.nodesBelow_eq (h : Skipped v) : nodesBelow v = [] := by
  cases h with
  | null | empty => rfl
  | not hop => exact nodesBelow_of_names hop (by decide) (by decide)
  | contains hop => exact nodesBelow_of_names hop (by decide) (by decide)

theorem IsLeaf.nodesBelow_eq (h : IsLeaf v l) : nodesBelow v = [] := by
  have hrelation := h.relation
  refine nodesBelow_of_names h.names ?_ ?_ <;>
  · intro hop
    rw [hop] at hrelation
    cases hrelation

theorem Joins.nodesBelow_eq (h : Joins v c terms) : nodesBelow v = terms := by
  unfold nodesBelow
  rw [h.names, h.lists]
  cases c
  · exact if_pos (.inl rfl)
  · exact if_pos (.inr rfl)

/-! ### The first fault -/

theorem exists_firstFault_iff {nodes : List Value} :
    (∃ e, FirstFault nodes e) ↔ ∃ node ∈ nodes, Malformed node := by
  constructor
  · rintro ⟨e, h⟩
    induction h with
    | here h rest => exact ⟨_, List.mem_cons_self, _, h⟩
    | later _ _ ih =>
      obtain ⟨node, hnode, h⟩ := ih
      exact ⟨node, List.mem_cons_of_mem _ hnode, h⟩
  · intro h
    induction nodes with
    | nil =>
      obtain ⟨_, hnode, -⟩ := h
      cases hnode
    | cons v rest ih =>
      by_cases hv : Malformed v
      · obtain ⟨e, hv⟩ := hv
        exact ⟨e, .here hv rest⟩
      · obtain ⟨node, hnode, h⟩ := h
        obtain rfl | hnode := List.mem_cons.1 hnode
        · exact absurd h hv
        · obtain ⟨e, hrest⟩ := ih ⟨node, hnode, h⟩
          exact ⟨e, .later hv hrest⟩

theorem not_firstFault_nil : ¬FirstFault [] e := fun h => by cases h

theorem firstFault_cons_iff {rest : List Value} (hv : ¬Malformed v) :
    FirstFault (v :: rest) e ↔ FirstFault rest e := by
  constructor
  · intro h
    cases h with
    | here h => exact absurd ⟨e, h⟩ hv
    | later _ h => exact h
  · exact .later hv

/-- The first fault of nodes and others is the first of the nodes, or that of the others if the nodes have
none. -/
theorem firstFault_append_iff {nodes others : List Value} :
    FirstFault (nodes ++ others) e ↔
      FirstFault nodes e ∨ (∀ e', ¬FirstFault nodes e') ∧ FirstFault others e := by
  induction nodes with
  | nil =>
    constructor
    · exact fun h => .inr ⟨fun _ => not_firstFault_nil, h⟩
    · rintro (h | ⟨-, h⟩)
      · exact absurd h not_firstFault_nil
      · exact h
  | cons v rest ih =>
    by_cases hv : Malformed v
    · constructor
      · intro h
        cases h with
        | here h => exact .inl (.here h rest)
        | later hv' => exact absurd hv hv'
      · intro h
        obtain h | ⟨hnone, -⟩ := h
        · cases h with
          | here h => exact .here h (rest ++ others)
          | later hv' => exact absurd hv hv'
        · obtain ⟨e', hv⟩ := hv
          exact absurd (.here hv rest) (hnone e')
    · rw [List.cons_append, firstFault_cons_iff hv, ih, firstFault_cons_iff hv]
      simp only [firstFault_cons_iff hv]

/-! ### Documents -/

/-- Induction over documents: a join may use what is known of each of its terms. -/
@[elab_as_elim]
theorem induct_nodesBelow {P : Value → Prop} (h : ∀ v, (∀ w ∈ nodesBelow v, P w) → P v) (v : Value) :
    P v :=
  h v fun w _ => induct_nodesBelow h w
termination_by sizeOf v
decreasing_by exact sizeOf_lt_of_mem_nodesBelow ‹_›

theorem ofValues_eq (vs : List Value) : ofValues vs = List.reduceOption <$> vs.mapM ofValue := by
  induction vs with
  | nil =>
    rw [ofValues]
    rfl
  | cons v rest ih =>
    rw [ofValues, ih, List.mapM_cons]
    cases ofValue v with
    | error e => rfl
    | ok first =>
      cases rest.mapM ofValue with
      | error e => rfl
      | ok results => cases first <;> rfl

/-- The terms of a join fail with the first fault of what is visited below them. -/
theorem ofValues_eq_error_iff {vs : List Value}
    (ih : ∀ v ∈ vs, ∀ e, ofValue v = .error e ↔ FirstFault (visited v) e) :
    ofValues vs = .error e ↔ FirstFault (vs.flatMap visited) e := by
  induction vs with
  | nil =>
    rw [ofValues]
    exact iff_of_false Result.ok_ne_error not_firstFault_nil
  | cons v rest ihr =>
    have hrest := ihr fun w hw => ih w (List.mem_cons_of_mem v hw)
    -- The rest is read exactly if there is no fault in what is visited of the first.
    have hok : (∃ first, ofValue v = .ok first) ↔ ∀ e', ¬FirstFault (visited v) e' := by
      simp only [← ih v List.mem_cons_self]
      cases ofValue v with
      | error e' =>
        refine iff_of_false ?_ fun h => h e' rfl
        rintro ⟨first, h⟩
        cases h
      | ok first => exact iff_of_true ⟨first, rfl⟩ fun _ => Result.ok_ne_error
    rw [List.flatMap_cons, firstFault_append_iff, ← ih v List.mem_cons_self, ← hok, ← hrest, ofValues,
      Result.bind_eq_error_iff]
    refine or_congr_right ⟨?_, ?_⟩
    · rintro ⟨first, hfirst, h⟩
      obtain h | ⟨_, -, h⟩ := Result.bind_eq_error_iff.1 h
      · exact ⟨⟨first, hfirst⟩, h⟩
      · cases h
    · rintro ⟨⟨first, hfirst⟩, h⟩
      exact ⟨first, hfirst, Result.bind_eq_error_iff.2 (.inl h)⟩

/-- A node that is read and lists no others is all that is visited, and not malformed. -/
theorem eq_error_iff_of_nodesBelow {result : Option Criteria} (hbelow : nodesBelow v = [])
    (hread : ofValue v = .ok result) :
    ofValue v = .error e ↔ FirstFault (v :: (nodesBelow v).flatMap visited) e := by
  have hv : ¬Malformed v := by
    rintro ⟨e', h⟩
    cases hread.symm.trans h.ofValue_eq
  rw [hbelow, firstFault_cons_iff hv, hread]
  exact iff_of_false Result.ok_ne_error not_firstFault_nil

/-- **A document fails with the error of its first malformed node.** -/
theorem ofValue_eq_error_iff (v : Value) (e : Error) : ofValue v = .error e ↔ FirstFault (visited v) e := by
  induction v using induct_nodesBelow generalizing e with
  | h v ih =>
  rw [visited_eq]
  -- Only below a join is there anything to visit, and a join is not malformed by itself.
  cases hasKind v with
  | skipped h => exact eq_error_iff_of_nodesBelow h.nodesBelow_eq h.ofValue_eq
  | leaf h => exact eq_error_iff_of_nodesBelow h.nodesBelow_eq h.ofValue_eq
  | @join c terms h =>
    rw [firstFault_cons_iff h.not_malformed, ← ofValues_eq_error_iff ih, h.nodesBelow_eq, h.ofValue_eq]
    cases ofValues terms with
    | error e' =>
      show Except.error e' = _ ↔ Except.error e' = _
      rw [Except.error.injEq, Except.error.injEq]
    | ok ts => exact iff_of_false Result.ok_ne_error Result.ok_ne_error
  | faulty h =>
    constructor
    · intro he
      cases h.ofValue_eq.symm.trans he
      exact .here h _
    · intro hfirst
      cases hfirst with
      | here h' => exact h'.ofValue_eq
      | later hv => exact absurd ⟨_, h⟩ hv

/-- A join is read as the join of what is read of its terms. -/
theorem Joins.eq_ok_iff (h : Joins v c terms) {result : Option Criteria} :
    ofValue v = .ok result ↔ ∃ results, List.Forall₂ (fun w r => ofValue w = .ok r) terms results ∧
      some (join c results.reduceOption) = result := by
  rw [h.ofValue_eq, ofValues_eq, Functor.map_map, Result.map_eq_ok_iff]
  simp only [Result.mapM_eq_ok_iff]

/-- **A document that is well formed comes to the tree that the grammar gives it.** -/
theorem ofValue_eq_ok_iff (v : Value) (result : Option Criteria) :
    ofValue v = .ok result ↔ Reads v result := by
  induction v using induct_nodesBelow generalizing result with
  | h v ih =>
  constructor
  · intro hread
    cases hasKind v with
    | skipped h =>
      cases h.ofValue_eq.symm.trans hread
      exact .skipped h
    | leaf h =>
      cases h.ofValue_eq.symm.trans hread
      exact .leaf h
    | join h =>
      obtain ⟨results, hterms, rfl⟩ := h.eq_ok_iff.1 hread
      exact .join h ((forall₂_iff_of_mem (h.nodesBelow_eq ▸ ih)).1 hterms)
    | faulty h => cases h.ofValue_eq.symm.trans hread
  · intro hreads
    cases hreads with
    | skipped h => exact h.ofValue_eq
    | leaf h => exact h.ofValue_eq
    | join h hterms =>
      exact h.eq_ok_iff.2 ⟨_, (forall₂_iff_of_mem (h.nodesBelow_eq ▸ ih)).2 hterms, rfl⟩

/-! ### What is read, and what is refused -/

theorem IsLeaf.wellRead (h : IsLeaf v l) : l.WellRead where
  relation := h.relation
  named := h.named
  alone := h.alone
  operand t ht _ := by
    have hright := h.right
    rw [ht] at hright
    generalize v.member? "right" = right at hright
    cases hright with
    | some hw => exact Term.elements_ne_nil_of_ofValue hw

/-- The leaves of a tree that is read are as the grammar has them. -/
theorem Reads.wellRead {t : Criteria} (h : Reads v (some t)) : ∀ l ∈ t.leaves, l.WellRead := by
  induction v using induct_nodesBelow generalizing t with
  | h v ih =>
  intro l hl
  cases h with
  | leaf h =>
    obtain rfl := List.mem_singleton.1 hl
    exact h.wellRead
  | @join _ c terms results h hterms =>
    rw [leaves_join, List.mem_flatMap] at hl
    obtain ⟨t, ht, hl⟩ := hl
    obtain ⟨w, hw, hread⟩ := exists_of_mem_forall₂ hterms.flip (List.reduceOption_mem_iff.1 ht)
    exact ih w (h.nodesBelow_eq ▸ hw) hread l hl

theorem Faulty.blamesDocument (h : Faulty v e) : e.BlamesDocument := by
  cases h with
  | operand _ _ _ _ _ _ _ _ _ _ he => exact Term.blamesDocument_of_ofValue he
  | _ => trivial

theorem FirstFault.blamesDocument {nodes : List Value} (h : FirstFault nodes e) : e.BlamesDocument := by
  induction h with
  | here h => exact h.blamesDocument
  | later _ _ ih => exact ih

/-- **The grammar of criteria.** A document comes to the tree that the grammar gives it, or to the error of
its first malformed node, and to an error if it has such a node; the leaves of the tree are as the grammar
has them. Documents and literals are refused for nothing but what they are and ask for, since of the two
passes that read an array the second never fails. -/
theorem ofValue_grammar (v : Value) :
    (∀ result, ofValue v = .ok result ↔ Reads v result) ∧
      (∀ e, ofValue v = .error e ↔ FirstFault (visited v) e) ∧
      ((∃ e, ofValue v = .error e) ↔ ∃ node ∈ visited v, Malformed node) ∧
      (∀ t, ofValue v = .ok (some t) → ∀ l ∈ t.leaves, l.WellRead) ∧
      (∀ e, ofValue v = .error e ∨ Term.ofValue v = .error e → e.BlamesDocument) ∧
      ∀ elements, Term.ofArray elements = Term.ofArrayTwice elements ∧
        ∀ type terms, elements.mapM (Term.coerced type) = .ok terms →
          ∃ t, Term.collected type terms = .ok t := by
  refine ⟨ofValue_eq_ok_iff v, ofValue_eq_error_iff v, ?_, ?_, ?_, ?_⟩
  · simp only [ofValue_eq_error_iff, exists_firstFault_iff]
  · exact fun t h => ((ofValue_eq_ok_iff v _).1 h).wellRead
  · intro e h
    obtain h | h := h
    · exact ((ofValue_eq_error_iff v e).1 h).blamesDocument
    · exact Term.blamesDocument_of_ofValue h
  · exact fun elements => ⟨Term.ofArray_eq elements, fun _ _ => Term.exists_collected⟩

/-- An And over a node of Contains, null, a leaf with an array, and an Or of a leaf without operand and an
empty object. -/
def nestedDocument : Value :=
  .obj [("op", .str "And"), ("searchTerms", .arr [.obj [("op", .str "Contains"), ("left", .null)], .null,
    .obj [("op", .str "Eq"), ("left", .str "done"), ("right", .arr [.bool true, .bool false])],
    .obj [("op", .str "Or"), ("searchTerms", .arr [.obj [("op", .str "Lt"), ("left", .str "age")], .obj []])]])]

def nestedTree : Criteria :=
  join .and [leaf { op := .eq, name := "done", operand := some (.booleans [true, false]) },
    join .or [leaf { op := .lt, name := "age", operand := none }]]

/-- Two faults, of which the first is below Or and the second is an And without terms; what stands below Not
is none. -/
def faultyDocument : Value :=
  .obj [("op", .str "And"), ("searchTerms", .arr [.obj [("op", .str "Not"), ("searchTerms", .bool true)],
    .obj [("op", .str "Or"), ("searchTerms", .arr [.obj [("op", .str "Like")]])],
    .obj [("op", .str "And")]])]

theorem ofValue_nestedDocument : ofValue nestedDocument = .ok (some nestedTree) := by
  have hcontains : Skipped (.obj [("op", .str "Contains"), ("left", .null)]) := .contains rfl
  have hdone : IsLeaf
      (.obj [("op", .str "Eq"), ("left", .str "done"), ("right", .arr [.bool true, .bool false])])
      { op := .eq, name := "done", operand := some (.booleans [true, false]) } :=
    ⟨rfl, rfl, rfl, by decide, .some rfl, rfl⟩
  have hage : IsLeaf (.obj [("op", .str "Lt"), ("left", .str "age")])
      { op := .lt, name := "age", operand := none } :=
    ⟨rfl, rfl, rfl, by decide, .none, rfl⟩
  have hor : Joins (.obj [("op", .str "Or"),
      ("searchTerms", .arr [.obj [("op", .str "Lt"), ("left", .str "age")], .obj []])]) .or
      [.obj [("op", .str "Lt"), ("left", .str "age")], .obj []] :=
    ⟨rfl, rfl, nofun⟩
  have hand : Joins nestedDocument .and _ := ⟨rfl, rfl, nofun⟩
  simp only [hand.ofValue_eq, hor.ofValue_eq, ofValues_eq, List.mapM_cons, List.mapM_nil, hcontains.ofValue_eq,
    Skipped.null.ofValue_eq, Skipped.empty.ofValue_eq, hdone.ofValue_eq, hage.ofValue_eq]
  rfl

theorem ofValue_faultyDocument : ofValue faultyDocument = .error (.parse (.unknownOperator "Like")) := by
  have hnot : Skipped (.obj [("op", .str "Not"), ("searchTerms", .bool true)]) := .not rfl
  have hlike : Faulty (.obj [("op", .str "Like")]) (.parse (.unknownOperator "Like")) :=
    .unknownOperator _ "Like" rfl fun op => by cases op <;> decide
  have hor : Joins (.obj [("op", .str "Or"), ("searchTerms", .arr [.obj [("op", .str "Like")]])]) .or
      [.obj [("op", .str "Like")]] :=
    ⟨rfl, rfl, nofun⟩
  have hand : Joins faultyDocument .and _ := ⟨rfl, rfl, nofun⟩
  simp only [hand.ofValue_eq, hor.ofValue_eq, ofValues_eq, List.mapM_cons, hnot.ofValue_eq, hlike.ofValue_eq]
  rfl

theorem ofValue_grammar_nested :
    (Reads nestedDocument (some nestedTree) ∧ ∀ l ∈ nestedTree.leaves, l.WellRead) ∧
      (FirstFault (visited faultyDocument) (.parse (.unknownOperator "Like")) ∧
        (∃ node ∈ visited faultyDocument, Malformed node) ∧
        (Error.parse (.unknownOperator "Like")).BlamesDocument) ∧
      ∃ t, Term.collected .boolean [.boolean true, .boolean false] = .ok t := by
  obtain ⟨hreads, -, -, hleaves, -, harrays⟩ := ofValue_grammar nestedDocument
  obtain ⟨-, hfirst, hmalformed, -, hblames, -⟩ := ofValue_grammar faultyDocument
  exact ⟨⟨(hreads _).1 ofValue_nestedDocument, hleaves _ ofValue_nestedDocument⟩,
    ⟨(hfirst _).1 ofValue_faultyDocument, hmalformed.1 ⟨_, ofValue_faultyDocument⟩,
      hblames _ (.inl ofValue_faultyDocument)⟩,
    (harrays [.bool true, .bool false]).2 .boolean _ rfl⟩

end Criteria
end DocumentStore
