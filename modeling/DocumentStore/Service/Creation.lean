import DocumentStore.Service.Basic
import DocumentStore.Service.Checks
import DocumentStore.Service.Expiry

/-! Creating items.

Items are prepared first, all of them, and then filed one after the other: a failure of the backend
leaves those before it filed. -/
namespace DocumentStore

/-- The partition that a stored item belongs to. -/
def Schema.partitionOf (schema : Schema) (stored : Item) : Result String :=
  match (stored.atKeyPath? schema.partitionKeyPath).bind Item.keyText? with
  | some partition => .ok partition
  | none => .error (.validation (.missingPartitionKey schema.partitionKeyPath))

/-- The item as it is to be stored, expiry included, and its partition. -/
def Schema.prepare (schema : Schema) (item : Item) : Result (String × Item) := do
  let stored := schema.aliases.storedItem (← item.withExpiry schema.expirySource)
  return (← schema.partitionOf stored, stored)

namespace Service

/-- Files prepared items one after the other. -/
def file (s : Service) (container : String) (prepared : List (String × Item)) : Action (List Item) :=
  prepared.mapM fun (partition, item) => s.backend.create container partition item

/-- Creates items and yields them as they are stored, in their order. -/
def create (s : Service) (container : String) (items : List Item) : Action (List Item) := do
  Checks.batch .insert Limits.maxWrite items
  let schema ← s.schema container .insert
  let prepared ← (items.mapM schema.prepare : Result _)
  return (← s.file container prepared).map (schema.external s.hashing)

end Service
end DocumentStore
