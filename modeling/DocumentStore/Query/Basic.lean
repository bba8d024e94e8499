import DocumentStore.Criteria.Basic
import DocumentStore.Item
import DocumentStore.Query.Options

/-! Queries: text for a backend that speaks the query language, together with the parts that the
text was written from, for a backend that evaluates them. -/
namespace DocumentStore
open Json (Value)

structure Query where
  text : String := ""
  /-- The values of the names that stand in the text behind an `@`. -/
  parameters : List (String × Value) := []
  /-- The partition that is searched; without one all are. -/
  partitionValue : Option String := none
  /-- The path of the attribute that holds the partition value. -/
  partitionKey : Option String := none
  /-- The filter, on stored names. -/
  filter : Option Criteria := none
  /-- The stored fields of results, `path AS path` to rename one; none asks for whole items. -/
  projection : List String := []
  sorting : Option Sorting := none
  skip : Option Nat := none
  limit : Option Nat := none
  /-- The number of results is asked for, not the results. -/
  count : Bool := false
  /-- Results of one page. -/
  pageSize : Option UInt64 := none

/-- The value of a parameter. -/
def Query.parameter? (q : Query) (name : String) : Option Value := Entries.find? name q.parameters

/-- A part of the results of a query. -/
structure Page where
  items : List Item := []
  /-- What asks for the page behind this one, where there is one. -/
  continuation : Option String := none

instance : Inhabited Page := ⟨{}⟩

end DocumentStore
