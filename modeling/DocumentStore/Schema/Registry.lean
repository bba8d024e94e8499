import DocumentStore.Error
import DocumentStore.Schema.Json

/-! Registries: the schemas a service knows, one for each container. -/
namespace DocumentStore
open Json (Tree)

/-- Schemas by container. -/
structure Registry where
  schemas : OrderedMap String Schema

namespace Registry

instance : Inhabited Registry := ⟨⟨.empty⟩⟩

/-- Registers a schema in place of an earlier one for the container. -/
def insert (r : Registry) (s : Schema) : Registry := ⟨r.schemas.insert s.container s⟩

/-- The registry of a list of schemas, of which later ones take the place of earlier ones. -/
def ofList (ss : List Schema) : Registry := ss.foldl insert default

/-- The registry of a JSON array of schemas. -/
def read (s : String) : Result Registry :=
  match (Tree.ofText? s).bind (Tree.list? Schema.ofTree?) with
  | some ss => .ok (ofList ss)
  | none => .error (.unreadable "container configurations")

/-- The schema of a container, for an operation on it. -/
def resolve (r : Registry) (container : String) (op : Operation) : Result Schema :=
  match r.schemas.get? container with
  | some s => .ok s
  | none => .error (.configuration (.unknownContainer container op))

end Registry
end DocumentStore
