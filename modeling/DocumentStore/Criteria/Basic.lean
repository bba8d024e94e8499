import DocumentStore.Error
import DocumentStore.Reserved

/-! Search criteria: predicates on attributes, joined by And and Or.

A leaf on the attribute `isDeleted` is a marker: it tests nothing by itself and asks that
soft-deleted items be left out. -/
namespace DocumentStore

/-- An attribute, an operator and a literal, with an optional path above the attribute. -/
structure Leaf where
  op : Operator
  name : String
  operand : Option Term
  parent : Option String := none
deriving DecidableEq

namespace Leaf

/-- The path of the attribute within an item, written with dots. -/
def path (l : Leaf) : String :=
  match l.parent with
  | some parent => parent ++ "." ++ l.name
  | none => l.name

/-- The leaf asks for soft-deleted items to be left out. -/
def isMarker (l : Leaf) : Bool := l.name == Reserved.isDeleted

/-- The leaf as messages show it. -/
def text (l : Leaf) : String :=
  l.path ++ " " ++ l.op.name ++ " " ++ (l.operand.getD .null).text

end Leaf

/-- A tree of predicates. -/
inductive Criteria where
  | leaf (l : Leaf)
  | join (op : Connective) (terms : List Criteria) (parent : Option String := none)

namespace Criteria

/-- The marker that asks for soft-deleted items to be left out. -/
def notDeleted : Criteria := leaf { op := .eq, name := Reserved.isDeleted, operand := none }

mutual
/-- Sets the path above every attribute of the tree. -/
def withParent (parent : String) : Criteria → Criteria
  | leaf l => leaf { l with parent := some parent }
  | join op terms _ => join op (allWithParent parent terms) (some parent)
def allWithParent (parent : String) : List Criteria → List Criteria
  | [] => []
  | t :: rest => t.withParent parent :: allWithParent parent rest
end

mutual
/-- Whether some leaf is on the given attribute. -/
def references (name : String) : Criteria → Bool
  | leaf l => l.name == name
  | join _ terms _ => anyReferences name terms
def anyReferences (name : String) : List Criteria → Bool
  | [] => false
  | t :: rest => t.references name || anyReferences name rest
end

mutual
/-- The tree with every attribute renamed; paths above attributes stay. -/
def mapNames (f : String → String) : Criteria → Criteria
  | leaf l => leaf { l with name := f l.name }
  | join op terms parent => join op (mapAllNames f terms) parent
def mapAllNames (f : String → String) : List Criteria → List Criteria
  | [] => []
  | t :: rest => t.mapNames f :: mapAllNames f rest
end

/-- What a search asks of the root of its criteria: a join has terms, and a leaf other than the
marker has both sides. -/
def check : Criteria → Result Unit
  | join _ terms _ => if terms.isEmpty then .error (.validation .emptyJoin) else .ok ()
  | leaf l =>
    if l.name.isEmpty || (l.operand.isNone && !l.isMarker) then
      .error (.validation (.missingSide l.text))
    else .ok ()

theorem allWithParent_eq_map (parent : String) (terms : List Criteria) :
    allWithParent parent terms = terms.map (withParent parent) := by
  induction terms with
  | nil => rfl
  | cons t rest ih => simp [allWithParent, ih]

theorem anyReferences_eq_any (name : String) (terms : List Criteria) :
    anyReferences name terms = terms.any (references name) := by
  induction terms with
  | nil => rfl
  | cons t rest ih => simp [anyReferences, ih]

theorem mapAllNames_eq_map (f : String → String) (terms : List Criteria) :
    mapAllNames f terms = terms.map (mapNames f) := by
  induction terms with
  | nil => rfl
  | cons t rest ih => simp [mapAllNames, ih]

end Criteria
end DocumentStore
