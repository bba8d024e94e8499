import DocumentStore.Item

/-! What a store stamps on the items it writes: a resource id, where the item is, a tag that changes
with every write, and the time of the write. -/
namespace DocumentStore
open Json (Value)

/-- The part of the system fields that differs from write to write. -/
structure Stamp where
  resource : String
  tag : String
  /-- Seconds since 1970. -/
  time : Int

namespace Stamp

/-- A number in hexadecimal digits, with leading zeros up to a width. -/
def hex (width n : Nat) : List Char := (Nat.toDigits 16 n).leftpad width '0'

/-- The `n`th identifier, in the groups of hexadecimal digits that a random UUID is written in. -/
def identifier (n : Nat) : List (List Char) :=
  [hex 8 n, hex 4 0, ['4', '0', '0', '0'], ['8', '0', '0', '0'], hex 12 n]

/-- The stamp of the `n`th write of a store that writes all its items in one second. -/
def numbered (n : Nat) : Stamp where
  resource := String.ofList (identifier n).flatten
  tag := String.ofList ('"' :: List.intercalate ['-'] (identifier n) ++ ['"'])
  time := 1750000000

end Stamp

/-- The item with the system fields of a write. -/
def Item.stamped (stamp : Stamp) (container : String) (item : Item) : Item :=
  item
    |>.insert "_self" (.str ("dbs/memory/colls/" ++ container ++ "/docs/" ++ stamp.resource))
    |>.insert "_rid" (.str stamp.resource)
    |>.insert "_etag" (.str stamp.tag)
    |>.insert "_attachments" (.str "attachments/")
    |>.insert "_ts" (.int stamp.time)

/-- Stamping changes the system fields and nothing else. -/
theorem Item.get?_stamped {stamp : Stamp} {container name : String} {item : Item}
    (h : name ∉ Reserved.systemFields) : (item.stamped stamp container).get? name = item.get? name := by
  simp only [Reserved.systemFields, List.mem_cons, List.not_mem_nil, or_false, not_or] at h
  simp [Item.stamped, h]

end DocumentStore
