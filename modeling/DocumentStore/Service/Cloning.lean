import DocumentStore.Clone
import DocumentStore.Service.Basic

/-! Cloning items from one key value to another, which no backend supports as yet. -/
namespace DocumentStore
open Json (Value)

/-- Clones the items with one value under a key as items with another. -/
def Service.cloneByKeyValue (_ : Service) (_ : Option Clone.Request) (_ : String)
    (_ _ : Value) : Action (List Clone.Progress) :=
  throw (.notSupported "clone by key value is not implemented by this backend")

end DocumentStore
