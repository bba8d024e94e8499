import DocumentStore.Error
import DocumentStore.Store.Key
import DocumentStore.Store.Stamp

/-! Stores of items in memory: containers by name, and in each its items by partition and id.

`Store.find?` is the view of a store: every operation is described by what it does to it. A write
counts up the number that its stamp is taken from. -/
namespace DocumentStore
open Json (Value)

/-- The items of a container by key, in key order. -/
abbrev Shelf := OrderedMap ItemKey Item

structure Store where
  containers : OrderedMap String Shelf := .empty
  /-- The writes so far. -/
  writes : Nat := 0

instance : Inhabited Store := ⟨{}⟩

namespace Store

/-- The items of a container; of one that does not exist there are none. -/
def shelf (s : Store) (container : String) : Shelf := (s.containers.get? container).getD .empty

/-- The item under a key of a container. -/
def find? (s : Store) (container : String) (key : ItemKey) : Option Item :=
  (s.shelf container).get? key

/-- Files an item under a key. -/
def put (s : Store) (container : String) (key : ItemKey) (item : Item) : Store where
  containers := s.containers.insert container ((s.shelf container).insert key item)
  writes := s.writes + 1

/-- Takes the item under a key out. -/
def remove (s : Store) (container : String) (key : ItemKey) : Store :=
  { s with containers := s.containers.insert container ((s.shelf container).erase key) }

/-- All items of a container, in key order. -/
def items (s : Store) (container : String) : List Item := (s.shelf container).values

/-- The items of all containers together. -/
def size (s : Store) : Nat := (s.containers.values.flatMap OrderedMap.values).length

theorem shelf_insert (s : Store) (container other : String) (shelf : Shelf) (writes : Nat) :
    (Store.mk (s.containers.insert container shelf) writes).shelf other =
      if other = container then shelf else s.shelf other := by
  simp only [Store.shelf, OrderedMap.get?_insert]
  split <;> simp

@[simp] theorem find?_put (s : Store) (container other : String) (key key' : ItemKey) (item : Item) :
    (s.put container key item).find? other key' =
      if other = container ∧ key' = key then some item else s.find? other key' := by
  simp only [find?, put, shelf_insert]
  by_cases hc : other = container <;> by_cases hk : key' = key <;> simp [hc, hk]

@[simp] theorem find?_remove (s : Store) (container other : String) (key key' : ItemKey) :
    (s.remove container key).find? other key' =
      if other = container ∧ key' = key then none else s.find? other key' := by
  simp only [find?, remove, shelf_insert]
  by_cases hc : other = container <;> by_cases hk : key' = key <;> simp [hc, hk]

/-! ### Single items -/

/-- Files a new item, stamped, in a partition under its id. -/
def create (stamp : Nat → Stamp) (container partition : String) (item : Item) (s : Store) :
    Result (Item × Store) :=
  match item.id? with
  | none => .error (.backend (some 400) "item is missing a string 'id'")
  | some id =>
    if (s.find? container ⟨partition, id⟩).isSome then
      .error (.backend (some 409) ("item " ++ id ++ " already exists in container " ++ container))
    else
      let stamped := item.stamped (stamp s.writes) container
      .ok (stamped, s.put container ⟨partition, id⟩ stamped)

/-- The item under a key. -/
def read (container id partition : String) (s : Store) : Result Item :=
  match s.find? container ⟨partition, id⟩ with
  | some item => .ok item
  | none => .error (.notFound id container)

/-- The items that are there of a list of ids and partitions, in its order. -/
def readMany (container : String) (keys : List (String × String)) (s : Store) : List Item :=
  keys.filterMap fun (id, partition) => s.find? container ⟨partition, id⟩

/-- Files an item, stamped and with the id of the key, in place of the one under the key. -/
def replace (stamp : Nat → Stamp) (container id partition : String) (item : Item) (s : Store) :
    Result (Item × Store) :=
  match s.find? container ⟨partition, id⟩ with
  | none => .error (.notFound id container)
  | some _ =>
    let stamped := Item.stamped (stamp s.writes) container (item.insert Reserved.id (.str id))
    .ok (stamped, s.put container ⟨partition, id⟩ stamped)

/-- Takes out the item under a key. -/
def delete (container id partition : String) (s : Store) : Result (Item × Store) :=
  match s.find? container ⟨partition, id⟩ with
  | none => .error (.notFound id container)
  | some item => .ok (item, s.remove container ⟨partition, id⟩)

end Store
end DocumentStore
