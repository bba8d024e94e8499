import DocumentStore.Json.Record
import DocumentStore.Limits

/-! What callers may ask of a search besides its criteria: order, fields and window. -/
namespace DocumentStore
open Json (Tree Value)

inductive Direction where
  | ascending
  | descending
deriving Repr, DecidableEq

def Direction.name : Direction → String
  | ascending => "Ascending"
  | descending => "Descending"

def Direction.names : List (String × Direction) :=
  [("Ascending", ascending), ("Descending", descending)]

theorem Direction.find?_name (d : Direction) : Entries.find? d.name names = some d := by
  cases d <;> decide

/-- An order of results by the value of a field. -/
structure Sorting where
  field : String
  direction : Direction
deriving DecidableEq

def Sorting.ofTree? (t : Tree) : Option Sorting := do
  let field ← t.fields? ["fieldName", "sortDirection"]
  return {
    field := ← Tree.required Tree.text? (field "fieldName")
    direction := ← Tree.required (Tree.choice? Direction.names) (field "sortDirection") }

def Sorting.toValue (s : Sorting) : Value :=
  .record [("fieldName", .str s.field), ("sortDirection", .str s.direction.name)]

structure SearchOptions where
  sorting : Option Sorting := none
  /-- The fields of results; none of them, or one with a `*`, asks for whole items. -/
  fields : List String := ["*"]
  limit : Option Nat := none
  skip : Option Nat := none
deriving DecidableEq

namespace SearchOptions

/-- The most results the search yields. -/
def window (o : SearchOptions) : Nat := o.limit.getD Limits.defaultLimit

/-- The results the search passes over. -/
def offset (o : SearchOptions) : Nat := o.skip.getD Limits.defaultSkip

def ofTree? (t : Tree) : Option SearchOptions := do
  let field ← t.fields? ["sortField", "projectionFields", "limit", "skip"]
  return {
    sorting := ← Tree.nullable Sorting.ofTree? (field "sortField")
    fields := ← Tree.withDefault ["*"] (Tree.list? Tree.text?) (field "projectionFields")
    limit := ← Tree.nullable Tree.unsigned? (field "limit")
    skip := ← Tree.nullable Tree.unsigned? (field "skip") }

def toValue (o : SearchOptions) : Value :=
  .record [("sortField", .ofOption Sorting.toValue o.sorting), ("projectionFields", .texts o.fields),
    ("limit", .ofOption (.int ·) o.limit), ("skip", .ofOption (.int ·) o.skip)]

end SearchOptions
end DocumentStore
