import DocumentStore.Document.Basic
import DocumentStore.Service.Creation
import DocumentStore.Service.Deletion
import DocumentStore.Service.Revision
import DocumentStore.Service.Search

/-! Collections: a service bound to one container, for its items or for documents of one type. -/
namespace DocumentStore
open Json (Value)

structure Collection where
  service : Service
  name : String

/-- The collection of a container. -/
def Service.collection (s : Service) (name : String) : Collection := ⟨s, name⟩

namespace Collection

def create (c : Collection) (items : List Item) : Action (List Item) :=
  c.service.create c.name items

def findByIds (c : Collection) (ids : List String) (partition : String) : Action (List Item) :=
  c.service.findByIds c.name ids partition

def find (c : Collection) (partition : String) (criteria : Criteria) (options : SearchOptions) :
    Action (List Item) :=
  c.service.find c.name partition (some criteria) options

def count (c : Collection) (partition : String) (criteria : Option Criteria) : Action Nat :=
  c.service.count c.name partition criteria

def deleteByIds (c : Collection) (partition : String) (ids : List String) : Action (List Item) :=
  c.service.deleteByIds c.name partition ids

def deleteByKeyValue (c : Collection) (key : String) (value : Value) (batch : UInt64) : Action Unit :=
  c.service.deleteByKeyValue [c.name] key value batch

def softDelete (c : Collection) (ids : List String) (partition : String)
    (delay : Option PurgeDelay) : Action Unit :=
  c.service.softDelete c.name ids partition delay

def undelete (c : Collection) (ids : List String) (partition : String)
    (delay : Option PurgeDelay) : Action (List Item) :=
  c.service.undelete c.name ids partition delay

def update (c : Collection) (id partition : String) (updates : Item) (returned : ReturnValue) :
    Action Update :=
  c.service.update c.name id partition updates returned

end Collection

/-- A collection of documents of a type. -/
structure Documents (α : Type) [Document α] where
  service : Service

/-- The documents of a type. -/
def Service.documents (s : Service) (α : Type) [Document α] : Documents α := ⟨s⟩

namespace Documents
variable {α : Type} [Document α]

/-- The same collection, of items. -/
def items (d : Documents α) : Collection := d.service.collection (Document.container α)

def name (d : Documents α) : String := d.items.name

/-- The documents of items, all of which have to be. -/
def ofItems (items : List Item) : Result (List α) := items.mapM Document.ofItem

def create (d : Documents α) (documents : List α) : Action (List α) := do
  let items ← (documents.mapM Document.toItem : Result _)
  ofItems (← d.items.create items)

def findByIds (d : Documents α) (ids : List String) (partition : String) : Action (List α) := do
  ofItems (← d.items.findByIds ids partition)

def find (d : Documents α) (partition : String) (criteria : Criteria) (options : SearchOptions) :
    Action (List α) := do
  ofItems (← d.items.find partition criteria options)

def deleteByIds (d : Documents α) (partition : String) (ids : List String) : Action (List α) := do
  ofItems (← d.items.deleteByIds partition ids)

end Documents
end DocumentStore
