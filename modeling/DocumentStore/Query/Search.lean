import DocumentStore.Query.Basic
import DocumentStore.Query.Clause
import DocumentStore.Schema.Basic
import DocumentStore.Term.Reading

/-! The queries that a container is searched by.

Searches and counts stay in one partition and read

    SELECT <fields> FROM c WHERE c.<partition key> = '<partition>'
      [AND (IS_DEFINED(c.isDeleted) = false OR c.isDeleted = false)] [AND <filter>]
      [ORDER BY c.<field> ASC|DESC] OFFSET <skip> LIMIT <limit>

where a count ends before the order. The condition on `isDeleted` is there when the criteria hold a
marker. A match by key value runs across partitions and yields the ids and partitions of the items
it finds. -/
namespace DocumentStore
open Json (Value)

namespace Query

/-- The condition that leaves out soft-deleted items. -/
def notDeletedGuard : String := "(IS_DEFINED(c.isDeleted) = false OR c.isDeleted = false)"

/-- The parameter of a match by key value. -/
def matchParameter : String := "@attributeValue"

/-- The field in which a match by key value yields partitions. -/
def partitionField : String := "pk"

/-- A field that asks for whole items. -/
def isWildcard (field : String) : Bool := field.toList.contains '*'

/-- The conditions that criteria put on items, in query text. -/
def conditions (a : Aliases) (criteria : Option Criteria) : Result String :=
  match criteria with
  | none => .ok ""
  | some c => do
    let guard := if c.references Reserved.isDeleted then " AND " ++ notDeletedGuard else ""
    match ← c.clause? a with
    | some clause => return guard ++ " AND " ++ clause.text
    | none => return guard

/-- A query of one partition. -/
def inPartition (s : Schema) (select partition : String) (criteria : Option Criteria) : Result Query := do
  let conditions ← conditions s.aliases criteria
  return {
    text := "SELECT " ++ select ++ " FROM c WHERE c." ++ s.partitionKeyName ++ " = " ++
      Literal.quote partition ++ conditions
    partitionValue := some partition
    partitionKey := some s.partitionKeyName
    filter := criteria.map (Criteria.mapNames s.aliases.storedName) }

/-- The fields of results in query text. -/
def selection (a : Aliases) (fields : List String) : String :=
  if fields.isEmpty then "*"
  else ",".intercalate <| fields.map fun field =>
    if isWildcard field then field else "c." ++ a.storedName field

def orderText : Option Sorting → String
  | none => ""
  | some s => " ORDER BY c." ++ s.field ++ match s.direction with
    | .ascending => " ASC"
    | .descending => " DESC"

/-- A search of one partition. -/
def find (s : Schema) (partition : String) (criteria : Option Criteria)
    (options : SearchOptions) : Result Query := do
  let query ← inPartition s (selection s.aliases options.fields) partition criteria
  let sorting := options.sorting.map fun sort => { sort with field := s.aliases.storedName sort.field }
  return { query with
    text := query.text ++ orderText sorting ++ " OFFSET " ++ toString options.offset ++ " LIMIT " ++
      toString options.window
    projection := (options.fields.filter (!isWildcard ·)).map s.aliases.storedName
    sorting
    skip := some options.offset
    limit := some options.window }

/-- The number of items of one partition. -/
def counting (s : Schema) (partition : String) (criteria : Option Criteria) : Result Query := do
  return { ← inPartition s "COUNT(1)" partition criteria with count := true }

/-- The id and the partition of every item with a value under a key. -/
def keyMatch (s : Schema) (key : String) (value : Value) : Result Query := do
  let name := s.aliases.storedName key
  let pk := s.partitionKeyName
  return {
    text := "SELECT c.id, c." ++ pk ++ " AS " ++ partitionField ++ " FROM c WHERE c." ++ name ++
      " = " ++ matchParameter
    parameters := [(matchParameter, value)]
    partitionKey := some pk
    filter := some (.leaf { op := .eq, name, operand := some (← Term.ofValue value) })
    projection := [Reserved.id, pk ++ " AS " ++ partitionField] }

end Query
end DocumentStore
