import DocumentStore.Aliases
import DocumentStore.Criteria.Basic
import DocumentStore.Query.Literal

/-! Filter clauses: the criteria that query text is written from.

A clause names attributes as they are stored and holds no markers: those drop out of criteria, and
with them the joins that they leave without parts. So a clause is never blank, and criteria without
a clause ask for nothing but, maybe, that soft-deleted items be left out. -/
namespace DocumentStore

/-- The operators that query text has. -/
inductive Symbol where
  | and
  | or
  | member
  | eq
  | lt
  | lte
  | gt
  | gte
deriving Repr, DecidableEq

def Symbol.text : Symbol → String
  | and => "AND"
  | or => "OR"
  | member => "IN"
  | eq => "="
  | lt => "<"
  | lte => "<="
  | gt => ">"
  | gte => ">="

/-- The symbol of an operator, for those that query text has. -/
def Operator.symbol? : Operator → Option Symbol
  | and => some .and
  | or => some .or
  | member => some .member
  | eq => some .eq
  | lt => some .lt
  | lte => some .lte
  | gt => some .gt
  | gte => some .gte
  | not | ne | between | contains => none

/-- The symbol between the parts of a join. -/
def Connective.symbol : Connective → Symbol
  | and => .and
  | or => .or

/-- A comparison of a stored attribute with a term, or a join of clauses. -/
inductive Clause where
  | comparison (path : String) (symbol : Symbol) (operand : Term)
  | join (op : Connective) (parts : List Clause)

namespace Clause

mutual
/-- A clause as query text: a join stands between parentheses. -/
def text : Clause → String
  | comparison path .member operand => path ++ " IN (" ++ Literal.text operand ++ ")"
  | comparison path symbol operand => path ++ " " ++ symbol.text ++ " " ++ Literal.text operand
  | join op parts => "(" ++ joined (" " ++ op.symbol.text ++ " ") parts ++ ")"
/-- The texts of clauses with a separator between any two. -/
def joined (separator : String) : List Clause → String
  | [] => ""
  | [c] => c.text
  | c :: rest => c.text ++ separator ++ joined separator rest
end

end Clause

/-- The stored attribute that a leaf compares, as a path in query text. -/
def Leaf.storedPath (a : Aliases) (l : Leaf) : String :=
  match l.parent with
  | some parent => "c." ++ parent ++ "." ++ a.storedName l.name
  | none => "c." ++ a.storedName l.name

/-- The comparison that a leaf other than a marker asks for. -/
def Leaf.clause (a : Aliases) (l : Leaf) : Result Clause :=
  match l.op.symbol?, l.operand with
  | none, _ => .error (.argument .operatorWithoutSymbol)
  | some _, none => .error (.argument .missingOperand)
  | some symbol, some operand =>
    if l.op = .member ∧ (operand.isArray = false ∨ operand.elements.isEmpty) then
      .error (.argument .emptyMembership)
    else .ok (.comparison (l.storedPath a) symbol operand)

namespace Criteria

mutual
/-- The clause of criteria, none where they are blank. -/
def clause? (a : Aliases) : Criteria → Result (Option Clause)
  | leaf l => if l.isMarker then .ok none else some <$> l.clause a
  | join op terms _ => do
    let parts ← clauses a terms
    return if parts.isEmpty then none else some (.join op parts)
/-- The clauses of the criteria that are not blank. -/
def clauses (a : Aliases) : List Criteria → Result (List Clause)
  | [] => .ok []
  | t :: rest => do
    let first ← t.clause? a
    let others ← clauses a rest
    return first.toList ++ others
end

/-- The filter text of criteria, empty where they are blank. -/
def filterText (a : Aliases) (c : Criteria) : Result String := do
  match ← c.clause? a with
  | some clause => return clause.text
  | none => return ""

end Criteria
end DocumentStore
