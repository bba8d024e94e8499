import DocumentStore.Error
import DocumentStore.Item
import DocumentStore.Json.Record

/-! Documents: types whose values are kept as the items of one container. -/
namespace DocumentStore
open Json (Tree Value)

class Document (α : Type) where
  /-- The container that holds the documents. -/
  container : String
  toValue : α → Value
  ofTree? : Tree → Option α

namespace Document
variable {α : Type} [Document α]

/-- The item of a document, which has to be an object. -/
def toItem (a : α) : Result Item :=
  match toValue a with
  | .obj members => .ok (.ofList members)
  | v => .error (.notAnItem (container α) v)

/-- The document of an item. -/
def ofItem (item : Item) : Result α :=
  match ofTree? (Tree.ofValue item.toValue) with
  | some a => .ok a
  | none => .error (.unreadable ("a document of container " ++ container α))

end Document
end DocumentStore
