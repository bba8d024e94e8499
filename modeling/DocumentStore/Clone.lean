import DocumentStore.Error
import DocumentStore.Json.Record
import DocumentStore.Limits

/-! Requests to clone items from one key value to another, and how far they got. -/
namespace DocumentStore
open Json (Tree Value)

namespace Clone

inductive Status where
  | processing
  | progressing
  | completed
  | failed
deriving Repr, DecidableEq

def Status.name : Status → String
  | processing => "Processing"
  | progressing => "Progressing"
  | completed => "Completed"
  | failed => "Failed"

def Status.names : List (String × Status) :=
  [("Processing", processing), ("Progressing", progressing), ("Completed", completed),
    ("Failed", failed)]

theorem Status.find?_name (s : Status) : Entries.find? s.name names = some s := by
  cases s <;> decide

/-- How far the clone of one container got. -/
structure Progress where
  container : String
  status : Option Status := none
  /-- Items read. -/
  read : Nat := 0
  /-- Items written. -/
  written : Nat := 0
  /-- The key attributes of the last item read, behind which a clone goes on. -/
  last : OrderedMap String Value := .empty

/-- The containers to clone and the number of items of one round. -/
structure Request where
  containers : List Progress
  batch : Nat := Limits.cloneBatch

/-- A request to clone containers from their start. -/
def Request.ofContainers (names : List String) : Request :=
  { containers := names.map fun container => { container } }

/-- The members of an object. An array of them is not one. -/
def mapOfTree? : Tree → Option (OrderedMap String Value)
  | .obj members => do
    match ← Tree.value? Json.maxDepth (.obj members) with
    | .obj entries => some (.ofList entries)
    | _ => none
  | _ => none

def Progress.ofTree? (t : Tree) : Option Progress := do
  let field ← t.fields?
    ["tableName", "status", "queriedItemCount", "clonedItemCount", "lastEvaluatedAttributes"]
  return {
    container := ← Tree.required Tree.text? (field "tableName")
    status := ← Tree.nullable (Tree.choice? Status.names) (field "status")
    read := ← Tree.withDefault 0 Tree.unsigned? (field "queriedItemCount")
    written := ← Tree.withDefault 0 Tree.unsigned? (field "clonedItemCount")
    last := ← Tree.withDefault .empty mapOfTree? (field "lastEvaluatedAttributes") }

def Progress.toValue (p : Progress) : Value :=
  .record [("tableName", .str p.container), ("status", .ofOption (fun s => .str s.name) p.status),
    ("queriedItemCount", .int p.read), ("clonedItemCount", .int p.written),
    ("lastEvaluatedAttributes", .obj p.last.entries)]

def Request.ofTree? (t : Tree) : Option Request := do
  let field ← t.fields? ["tableStatuses", "batchSize"]
  return {
    containers := ← Tree.required (Tree.list? Progress.ofTree?) (field "tableStatuses")
    batch := ← Tree.withDefault Limits.cloneBatch Tree.unsigned? (field "batchSize") }

def Request.toValue (r : Request) : Value :=
  .record [("tableStatuses", .arr (r.containers.map Progress.toValue)), ("batchSize", .int r.batch)]

end Clone
end DocumentStore
