import DocumentStore.Backend.Memory
import DocumentStore.Schema.Registry

/-! Services: what callers ask for, carried out by calls to a backend.

A service knows the schemas of its containers. Callers see items under external names and without
system fields, the backend holds them under stored names (`Schema.external`). Every call makes the table
that leads back to external names anew. So a `Service` is a service in one call of it: what holds of
several calls is said of services that may differ in the order of their hash tables. -/
namespace DocumentStore

structure Service where
  backend : Backend
  registry : Registry
  /-- The order in which the call at hand comes upon the pairs of an alias table. -/
  hashing : HashOrder := .byKey

namespace Service

/-- A service on a backend in memory, for settings that are complete. -/
def connect (m : Memory) (c : Connection) (registry : Registry) : Result Service := do
  c.check
  return { backend := ← m.connect c, registry }

/-- The schema of a container, for an operation on it. -/
def schema (s : Service) (container : String) (op : Operation) : Result Schema :=
  s.registry.resolve container op

end Service

/-- A stored item as the caller sees it, in a call with some order of hash tables. -/
def Schema.external (schema : Schema) (hashing : HashOrder) (item : Item) : Item :=
  schema.aliases.externalItem hashing item.withoutSystemFields

end DocumentStore
