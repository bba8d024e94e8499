import DocumentStore.Criteria.Basic
import DocumentStore.Json.Tree
import DocumentStore.Term.Reading

/-! Criteria read from JSON.

Each node is an object that names its operator under `op`: And and Or list their terms under
`searchTerms`, the other operators have an attribute under `left` and a literal under `right`.
Null and the empty object are no criteria; nor are Not and Contains, whatever else they hold. Nodes
are read depth first, and the first fault is the outcome. -/
namespace DocumentStore.Criteria
open Json (Value)

/-- The operator a node names. -/
def operatorOf (members : List (String × Value)) : Result Operator :=
  match Entries.find? "op" members with
  | some (.str name) =>
    match Operator.ofName? name with
    | some op => .ok op
    | none => .error (.parse (.unknownOperator name))
  | some v => .error (.parse (.operatorNotText v))
  | none => .error (.parse .operatorMissing)

/-- The terms a join lists. -/
def termsOf (members : List (String × Value)) : Result (List Value) :=
  match Entries.find? "searchTerms" members with
  | some (.arr []) => .error (.validation .joinOfNoTerms)
  | some (.arr terms) => .ok terms
  | _ => .error (.validation .joinWithoutTerms)

/-- A leaf node. -/
def leafOf (op : Operator) (members : List (String × Value)) : Result Leaf := do
  let name ← match Entries.find? "left" members with
    | some (.str name) => if name.isEmpty then .error (.validation (.missingAttribute op)) else .ok name
    | _ => .error (.validation (.missingAttribute op))
  let operand ← (Entries.find? "right" members).mapM Term.ofValue
  return { op, name, operand }

theorem sizeOf_lt_of_mem {name : String} {v : Value} {members : List (String × Value)}
    (h : (name, v) ∈ members) : sizeOf v < sizeOf members := by
  have := List.sizeOf_lt_of_mem h
  simp only [Prod.mk.sizeOf_spec] at this
  omega

theorem sizeOf_terms_lt {members : List (String × Value)} {terms : List Value}
    (h : termsOf members = .ok terms) : sizeOf terms < sizeOf members := by
  unfold termsOf at h
  split at h
  · cases h
  · next found =>
    cases h
    have := sizeOf_lt_of_mem (Entries.mem_of_find? found)
    simp only [Value.arr.sizeOf_spec] at this
    omega
  · cases h

mutual
/-- The criteria of a JSON document, none where it asks for nothing. -/
def ofValue : Value → Result (Option Criteria)
  | .null => .ok none
  | .obj [] => .ok none
  | .obj members => do
    match ← operatorOf members with
    | .and => joinOf .and members
    | .or => joinOf .or members
    | .not | .contains => .ok none
    | op => (fun l => some (leaf l)) <$> leafOf op members
  | v => .error (.parse (.notAnObject v))
termination_by v => (sizeOf v, 1)
def joinOf (op : Connective) (members : List (String × Value)) : Result (Option Criteria) :=
  match h : termsOf members with
  | .ok terms => do
    have := sizeOf_terms_lt h
    return some (join op (← ofValues terms))
  | .error e => .error e
termination_by (sizeOf members, 0)
/-- The criteria of the documents that ask for something. -/
def ofValues : List Value → Result (List Criteria)
  | [] => .ok []
  | v :: rest => do
    let first ← ofValue v
    let others ← ofValues rest
    return first.toList ++ others
termination_by vs => (sizeOf vs, 0)
end

/-- The criteria written in a text; a blank text asks for nothing. -/
def read (s : String) : Result (Option Criteria) :=
  if Text.isBlankText s then .ok none
  else
    match Json.read? s with
    | some v => ofValue v
    | none => .error (.unreadable "JSON")

end DocumentStore.Criteria
