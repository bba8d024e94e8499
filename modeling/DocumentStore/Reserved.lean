/-! Attribute names with a meaning of their own. -/
namespace DocumentStore.Reserved

/-- The item's identifier within its partition. -/
def id : String := "id"
/-- The mark of a soft-deleted item. -/
def isDeleted : String := "isDeleted"
/-- Seconds until the backend purges the item. -/
def ttl : String := "ttl"
/-- What the backend stamps on every write, hidden from callers. -/
def systemFields : List String := ["_rid", "_self", "_etag", "_attachments", "_ts"]

end DocumentStore.Reserved
