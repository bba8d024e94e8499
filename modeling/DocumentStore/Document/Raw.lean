import DocumentStore.Document.Basic

/-! Raw documents: any JSON value, of which the container `raw` holds the objects. -/
namespace DocumentStore
open Json (Tree Value)

structure Raw where
  value : Value
deriving DecidableEq

instance : Document Raw where
  container := "raw"
  toValue r := r.value
  ofTree? t := (t.value? Json.maxDepth).map Raw.mk

end DocumentStore
