import DocumentStore.Query.Search
import DocumentStore.Service.Basic
import DocumentStore.Service.Checks

/-! Deleting items, by id and by the value of an attribute.

A deletion by value asks for the first items that have the value, deletes them, and asks again until
none are left. Each round that finds items makes the store smaller or fails, so a round more than
the store has items is enough. -/
namespace DocumentStore
open Json (Value)

/-- A list cut into chunks of `n` elements, the last of which may be shorter. -/
def chunks (n : Nat) (xs : List α) : List (List α) :=
  if n = 0 ∨ xs.length ≤ n then (if xs.isEmpty then [] else [xs])
  else xs.take n :: chunks n (xs.drop n)
termination_by xs.length
decreasing_by simp; omega

/-- The chunks of a list make up the list. -/
theorem flatten_chunks (n : Nat) (xs : List α) : (chunks n xs).flatten = xs := by
  fun_induction chunks n xs with
  | case1 xs _ h => simpa using (List.isEmpty_iff.1 h).symm
  | case2 => simp
  | case3 xs _ ih => rw [List.flatten_cons, ih, List.take_append_drop]

namespace Service

/-- Deletes items of a partition by id and yields those that were there. What cannot be deleted is
left out. -/
def deleteByIds (s : Service) (container partition : String) (ids : List String) :
    Action (List Item) := do
  Checks.batch .delete Limits.maxWrite ids
  let schema ← s.schema container .delete
  let outcomes ← ids.mapM fun id => (s.backend.delete container id partition).attempt
  return (outcomes.filterMap (·)).map (schema.external s.hashing)

/-- The id and partition of an item that a match by key value found. -/
def matchedKey (container : String) (fallback : Option String) (row : Item) :
    Result (String × String) :=
  match row.id? with
  | none => .error (.backend (some 500) ("query on " ++ container ++ " returned an item without id"))
  | some id =>
    match ((row.get? Query.partitionField).bind Item.keyText?).or fallback with
    | some partition => .ok (id, partition)
    | none => .error (.validation (.unknownPartition id container))

/-- Deletes the items of a page, chunk by chunk. The keys of a chunk are read before its items are
deleted. -/
def deletePage (s : Service) (container : String) (fallback : Option String) (chunk : Nat)
    (rows : List Item) : Action Unit :=
  (chunks chunk rows).forM fun rows => do
    let keys ← (rows.mapM (matchedKey container fallback) : Result _)
    keys.forM fun (id, partition) => discard (s.backend.delete container id partition)

/-- Deletes what a query finds, page by page, until it finds nothing. -/
def deleteRounds (ask : Action Page) (remove : List Item → Action Unit) : Nat → Action Unit
  | 0 => pure ()
  | most + 1 => do
    let page ← ask
    if page.items.isEmpty then return
    remove page.items
    deleteRounds ask remove most

/-- Deletes the items of a container with a value under a key. -/
def deleteMatching (s : Service) (schema : Schema) (key : String) (value : Value) (batch : UInt64) :
    Action Unit := do
  let query : Query := { ← Query.keyMatch schema key value with pageSize := some batch }
  deleteRounds (s.backend.query schema.container query none)
    (s.deletePage schema.container (Item.keyText? value) batch.toNat) ((← get).size + 1)

/-- Deletes the items of several containers with a value under a key. -/
def deleteByKeyValue (s : Service) (containers : List String) (key : String) (value : Value)
    (batch : UInt64) : Action Unit := do
  Checks.someInput .delete containers
  let batch := if batch = 0 then Limits.deletionBatch else batch
  let schemas ← (containers.mapM fun container => s.schema container .delete : Result _)
  schemas.forM fun schema => s.deleteMatching schema key value batch

end Service
end DocumentStore
