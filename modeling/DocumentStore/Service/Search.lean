import DocumentStore.Query.Search
import DocumentStore.Service.Basic
import DocumentStore.Service.Checks

/-! Finding and counting items. -/
namespace DocumentStore
open Json (Value)

namespace Service

/-- The items of a partition with the given ids, as far as they are there. -/
def findByIds (s : Service) (container : String) (ids : List String) (partition : String) :
    Action (List Item) := do
  Checks.batch .query Limits.maxRead ids
  Checks.distinct .query container ids
  let schema ← s.schema container .query
  let found ← s.backend.readMany container (ids.map (·, partition))
  return found.map (schema.external s.hashing)

/-- The items of a partition that meet criteria. -/
def find (s : Service) (container partition : String) (criteria : Option Criteria)
    (options : SearchOptions) : Action (List Item) := do
  Checks.partition partition
  let criteria ← Checks.someCriteria criteria
  Checks.limit options.limit
  let schema ← s.schema container .query
  let query ← Query.find schema partition (some criteria) options
  return (← s.backend.rows container query).map (schema.external s.hashing)

/-- The number that a row of a count holds. -/
def countOf (row : Item) : Nat :=
  match row.get? "$1" with
  | some (.num n) => n.unsigned?.getD 0
  | _ => 0

/-- The number of items of a partition that meet criteria; without criteria all do. -/
def count (s : Service) (container partition : String) (criteria : Option Criteria) :
    Action Nat := do
  Checks.partition partition
  if let some c := criteria then c.check
  let schema ← s.schema container .query
  let query ← Query.counting schema partition criteria
  return ((← s.backend.rows container query).map countOf).foldr (· + ·) 0

end Service
end DocumentStore
