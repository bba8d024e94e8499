import DocumentStore.Aliases
import DocumentStore.Text.Segments

/-! Schemas: what is known about a container besides its items. -/
namespace DocumentStore

/-- The declared type of an attribute. -/
inductive AttributeType where
  | string
  | number
  | long
  | dateTime
  | boolean
  | object
deriving Repr, DecidableEq

structure Attribute where
  /-- The name callers use. -/
  name : String
  /-- The name in the store, where it differs. -/
  stored : Option String := none
  type : AttributeType := .string
deriving DecidableEq

/-- Where the expiry of items comes from. -/
structure Expiry where
  /-- The attribute an item's expiry is derived from. -/
  source : String
  enabled : Bool := true
  /-- The lifetime of items without an expiry of their own, which the backend applies. -/
  lifetime : Option Int := none
deriving DecidableEq

structure Schema where
  /-- The container the schema is for. -/
  container : String
  partitionKeyPath : String
  sortKeyPath : Option String := none
  attributes : List Attribute := []
  /-- Attributes are renamed on their way to the store and back. -/
  aliased : Bool := false
  expiry : Option Expiry := none
deriving DecidableEq

namespace Schema

/-- Adds an attribute with a stored name of its own and turns renaming on. -/
def withAlias (s : Schema) (name stored : String) : Schema :=
  { s with attributes := s.attributes ++ [{ name, stored }], aliased := true }

/-- Derives the expiry of items from an attribute. -/
def withExpiry (s : Schema) (source : String) : Schema := { s with expiry := some { source } }

/-- The partition key as a path with dots: `/address/zip` becomes `address.zip`. -/
def partitionKeyName (s : Schema) : String :=
  Text.replaceChar '/' '.' (Text.dropLeading '/' s.partitionKeyPath)

/-- The attribute that items' expiry is derived from, where it is. -/
def expirySource (s : Schema) : Option String :=
  match s.expiry with
  | some e => if e.enabled then some e.source else none
  | none => none

/-- The alias table: empty unless attributes are renamed. -/
def aliases (s : Schema) : Aliases :=
  if s.aliased then .ofList (s.attributes.filterMap fun a => a.stored.map (a.name, ·)) else .empty

end Schema
end DocumentStore
