import DocumentStore.Backend.Basic
import DocumentStore.Connection
import DocumentStore.Limits
import DocumentStore.Store.Results

/-! The backend that keeps its items in memory. -/
namespace DocumentStore

/-- What a backend in memory is set up with. -/
structure Memory where
  /-- Items of one page of a query that sets no number; one at least. -/
  pageSize : UInt64 := Limits.pageSize
  /-- What the first, second and further writes are stamped with. -/
  stamp : Nat → Stamp := Stamp.numbered
  /-- What sorts results. -/
  sorter : Sorter := .placing

namespace Memory

def backend (m : Memory) : Backend where
  create container partition item := .ofChange (Store.create m.stamp container partition item)
  read container id partition := .ofReading (Store.read container id partition)
  readMany container keys := .ofReading fun s => .ok (Store.readMany container keys s)
  replace container id partition item := .ofChange (Store.replace m.stamp container id partition item)
  delete container id partition := .ofChange (Store.delete container id partition)
  query container q token := .ofReading (Store.page m.pageSize m.sorter container q token)
  mostPages s := s.size + 1

/-- Connects to a backend in memory, which asks for complete settings as others do. -/
def connect (m : Memory) (c : Connection) : Result Backend := do
  c.check
  return m.backend

end Memory
end DocumentStore
