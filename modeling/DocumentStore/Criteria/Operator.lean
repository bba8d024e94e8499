/-! The operators that search criteria name. -/
namespace DocumentStore

inductive Operator where
  | and
  | or
  | not
  | eq
  | ne
  | lt
  | lte
  | gt
  | gte
  | member
  | between
  | contains
deriving Repr, DecidableEq

namespace Operator

/-- The name of an operator in criteria, letter case included. -/
def name : Operator → String
  | and => "And"
  | or => "Or"
  | not => "Not"
  | eq => "Eq"
  | ne => "Ne"
  | lt => "Lt"
  | lte => "Lte"
  | gt => "Gt"
  | gte => "Gte"
  | member => "In"
  | between => "Between"
  | contains => "Contains"

/-- Every operator once. -/
def all : List Operator := [and, or, not, eq, ne, lt, lte, gt, gte, member, between, contains]

/-- The operator of a name. -/
def ofName? (s : String) : Option Operator := all.find? fun op => op.name == s

theorem ofName?_name (op : Operator) : ofName? op.name = some op := by
  cases op <;> decide

theorem eq_name_of_ofName? {s : String} {op : Operator} (h : ofName? s = some op) : s = op.name := by
  have := List.find?_some h
  simpa using (beq_iff_eq.1 this).symm

end Operator

/-- The two ways of joining criteria. -/
inductive Connective where
  | and
  | or
deriving Repr, DecidableEq

/-- The operator that names a connective. -/
def Connective.operator : Connective → Operator
  | and => .and
  | or => .or

end DocumentStore
