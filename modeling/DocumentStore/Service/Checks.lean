import DocumentStore.Criteria.Basic
import DocumentStore.Limits
import DocumentStore.Text.Blank

/-! What is checked about a request before the backend is called. -/
namespace DocumentStore.Checks

/-- Input that is there. -/
def someInput (op : Operation) (input : List α) : Result Unit :=
  if input.isEmpty then .error (.validation (.emptyInput op)) else .ok ()

/-- Input that is there, and is no more than allowed. -/
def batch (op : Operation) (most : Nat) (input : List α) : Result Unit := do
  someInput op input
  if most < input.length then .error (.validation (.oversizedInput op most)) else .ok ()

/-- Ids of which no two are the same. -/
def distinct (op : Operation) (container : String) (ids : List String) : Result Unit :=
  if ids.Nodup then .ok () else .error (.duplicateIds op container)

/-- A partition that is named. -/
def partition (value : String) : Result Unit :=
  if Text.isBlankText value then .error (.validation .blankPartition) else .ok ()

/-- An id that is named. -/
def id (value : String) : Result Unit :=
  if Text.isBlankText value then .error (.validation .blankId) else .ok ()

/-- Criteria that are there and can be searched by. -/
def someCriteria : Option Criteria → Result Criteria
  | none => .error (.validation .missingCriteria)
  | some c => do
    c.check
    return c

/-- A limit that is no more than allowed. -/
def limit : Option Nat → Result Unit
  | none => .ok ()
  | some n =>
    if Limits.maxLimit < n then .error (.validation (.limitTooLarge Limits.maxLimit)) else .ok ()

end DocumentStore.Checks
