import DocumentStore.Criteria.Basic
import DocumentStore.Filter.Comparable
import DocumentStore.Item

/-! What criteria say about an item.

A tree has a truth value or is blank: markers are blank, blank terms drop out of a join, and a join
of blank terms is blank. Terms are looked at from left to right, and those behind the one that
decides a join are not looked at, so their faults stay unseen. A blank tree admits every item. A
tree with a marker anywhere admits no item whose `isDeleted` is true. -/
namespace DocumentStore
open Json (Value)

/-- Whether a side is in the relation of an operator to a term other than null. -/
def Operator.holds (op : Operator) (left : Comparable) (operand : Term) : Result Bool :=
  let order := left.order? (.ofTerm operand)
  match op with
  | .eq => .ok (left.same (.ofTerm operand))
  | .ne => .ok (!left.same (.ofTerm operand))
  | .lt => .ok (order == some .lt)
  | .lte => .ok (order == some .lt || order == some .eq)
  | .gt => .ok (order == some .gt)
  | .gte => .ok (order == some .gt || order == some .eq)
  | .member =>
    if operand.isArray && !operand.elements.isEmpty then
      .ok (operand.elements.any fun t => left.same (.ofTerm t))
    else .error (.argument .emptyMembership)
  | .between =>
    match operand.elements with
    | [low, high] =>
      let fromLow := left.order? (.ofTerm low)
      let toHigh := left.order? (.ofTerm high)
      .ok ((fromLow == some .gt || fromLow == some .eq) && (toHigh == some .lt || toHigh == some .eq))
    | _ => .error (.argument .boundCount)
  | .and | .or | .not | .contains => .error (.argument (.unsupportedOperator op))

/-- Whether an attribute counts as null: it is, or it is not there. -/
def isAbsent : Option Value → Bool
  | none | some .null => true
  | _ => false

/-- What a leaf says about an item. Null is tested for by Eq and Ne alone; a missing attribute
fails every other test. -/
def Leaf.holds (l : Leaf) (item : Item) : Result Bool :=
  match l.operand with
  | none => .error (.argument .missingOperand)
  | some .null =>
    match l.op with
    | .eq => .ok (isAbsent (item.lookup? l.path))
    | .ne => .ok (!isAbsent (item.lookup? l.path))
    | _ => .ok false
  | some operand =>
    match item.lookup? l.path with
    | none => .ok false
    | some v => l.op.holds (.ofValue v) operand

namespace Criteria

mutual
/-- The truth value of a tree about an item, none where it is blank. -/
def truth? (item : Item) : Criteria → Result (Option Bool)
  | leaf l => if l.isMarker then .ok none else some <$> l.holds item
  | join .and terms _ => all? item terms
  | join .or terms _ => any? item terms
/-- The conjunction of the terms that are not blank. -/
def all? (item : Item) : List Criteria → Result (Option Bool)
  | [] => .ok none
  | t :: rest => do
    match ← t.truth? item with
    | none => all? item rest
    | some false => .ok (some false)
    | some true => return some ((← all? item rest).getD true)
/-- The disjunction of the terms that are not blank. -/
def any? (item : Item) : List Criteria → Result (Option Bool)
  | [] => .ok none
  | t :: rest => do
    match ← t.truth? item with
    | none => any? item rest
    | some true => .ok (some true)
    | some false => return some ((← any? item rest).getD false)
end

/-- Whether the tree holds of an item; a blank one does. -/
def admits (c : Criteria) (item : Item) : Result Bool := do
  return (← c.truth? item).getD true

end Criteria

/-- Whether an item is soft-deleted: `isDeleted` is true. -/
def Item.isDeleted (item : Item) : Bool := item.get? Reserved.isDeleted == some (.bool true)

/-- Whether a filter keeps an item. -/
def keeps (filter : Option Criteria) (item : Item) : Result Bool :=
  match filter with
  | none => .ok true
  | some c => if c.references Reserved.isDeleted && item.isDeleted then .ok false else c.admits item

/-- The items a filter keeps, looked at in their order. -/
def select (filter : Option Criteria) : List Item → Result (List Item)
  | [] => .ok []
  | item :: rest => do
    let kept ← keeps filter item
    let others ← select filter rest
    return if kept then item :: others else others

end DocumentStore
