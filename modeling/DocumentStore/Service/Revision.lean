import DocumentStore.PurgeDelay
import DocumentStore.ReturnValue
import DocumentStore.Service.Basic
import DocumentStore.Service.Checks

/-! Changing items that are there: updates, soft deletion and its reversal.

Each change is a reading and a replacement, between which the item may change under other hands. -/
namespace DocumentStore

namespace Item

/-- The item with the attributes of another in place of its own. -/
def overlaid (item changes : Item) : Item :=
  changes.entries.foldl (fun acc e => acc.insert e.1 e.2) item

/-- What replaces a stored item in an update: the system fields of neither count. -/
def revised (aliases : Aliases) (updates old : Item) : Item :=
  old.withoutSystemFields.overlaid (aliases.storedItem updates).withoutSystemFields

/-- What replaces an item that is soft-deleted or restored. A delay sets the purge, or drops it. -/
def marked (deleted : Bool) (delay : Option PurgeDelay) (item : Item) : Item :=
  let item := item.insert Reserved.isDeleted (.bool deleted)
  let item := match deleted, delay with
    | true, some d => item.insert Reserved.ttl (.int d.seconds)
    | false, some _ => item.erase Reserved.ttl
    | _, none => item
  withoutSystemFields item

end Item

namespace Service

/-- Reads an item and files what a revision makes of it. Yields it before and after. -/
def revise (s : Service) (container id partition : String) (revision : Item → Item) :
    Action (Item × Item) := do
  let old ← s.backend.read container id partition
  let new ← s.backend.replace container id partition (revision old)
  return (old, new)

/-- Marks items as deleted or not, one after the other up to the first failure. -/
def mark (s : Service) (container : String) (ids : List String) (partition : String)
    (deleted : Bool) (delay : Option PurgeDelay) : Action (List Item) := do
  Checks.someInput .update ids
  let schema ← s.schema container .update
  let marked ← ids.mapM fun id => s.revise container id partition (Item.marked deleted delay)
  return marked.map fun (_, new) => schema.external s.hashing new

/-- Marks items as deleted and, where a delay is given, sets their purge. -/
def softDelete (s : Service) (container : String) (ids : List String) (partition : String)
    (delay : Option PurgeDelay) : Action Unit :=
  discard (s.mark container ids partition true delay)

/-- Takes the mark back and, where a delay is given, the purge too. -/
def undelete (s : Service) (container : String) (ids : List String) (partition : String)
    (delay : Option PurgeDelay) : Action (List Item) :=
  s.mark container ids partition false delay

/-- Changes attributes of an item and reports the states that are asked for. -/
def update (s : Service) (container id partition : String) (updates : Item)
    (returned : ReturnValue) : Action Update := do
  Checks.id id
  let schema ← s.schema container .update
  let (old, new) ← s.revise container id partition (Item.revised schema.aliases updates)
  return returned.report (schema.external s.hashing old) (schema.external s.hashing new)

end Service
end DocumentStore
