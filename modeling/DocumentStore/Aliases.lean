import DocumentStore.Item

/-! Alias tables: attributes whose stored name differs from the name callers use.

A table maps external names to stored ones; a name it does not hold stands for itself. The way back is a
table of its own, made of the pairs in the order in which a hash table yields them, which nobody knows and
which is another one each time (`HashOrder`): of two external names with one stored name either may be the
one that it leads back to. Renaming an item enters the attributes that keep their name first and the renamed
ones behind them, so where both claim a name the renamed one has it. -/
namespace DocumentStore

/-- An order in which a hash table yields its entries. -/
structure HashOrder where
  arrange : List (String × String) → List (String × String)
  perm : ∀ entries, (arrange entries).Perm entries

/-- The order by keys. -/
def HashOrder.byKey : HashOrder := ⟨id, .refl⟩

/-- Stored names by external name. -/
structure Aliases where
  toStored : OrderedMap String String

namespace Aliases

/-- The table without entries. -/
def empty : Aliases := ⟨.empty⟩

instance : Inhabited Aliases := ⟨empty⟩

/-- The table of pairs of an external and a stored name; of two with one external name the later
counts. -/
def ofList (pairs : List (String × String)) : Aliases := ⟨.ofList pairs⟩

def isEmpty (a : Aliases) : Bool := a.toStored.isEmpty

/-- External names by stored name; of two with one stored name the one that comes up later counts. -/
def toExternal (a : Aliases) (hashing : HashOrder) : OrderedMap String String :=
  .ofList ((hashing.arrange a.toStored.entries).map fun e => (e.2, e.1))

/-- The name a table gives, where it gives one, and otherwise the name itself. -/
def rename (table : OrderedMap String String) (name : String) : String := (table.get? name).getD name

/-- The name an attribute is stored under. -/
def storedName (a : Aliases) (name : String) : String := rename a.toStored name

/-- The name callers know a stored attribute by. -/
def externalName (a : Aliases) (hashing : HashOrder) (name : String) : String :=
  rename (a.toExternal hashing) name

/-- The item with its attributes renamed by a table. -/
def renameItem (table : OrderedMap String String) (item : Item) : Item :=
  let (renamed, kept) := item.entries.partition fun e => table.contains e.1
  .ofList (kept ++ renamed.map fun e => (rename table e.1, e.2))

/-- The item as it is stored. -/
def storedItem (a : Aliases) (item : Item) : Item := renameItem a.toStored item

/-- The stored item as callers see it. -/
def externalItem (a : Aliases) (hashing : HashOrder) (item : Item) : Item :=
  renameItem (a.toExternal hashing) item

@[simp] theorem storedName_empty (name : String) : empty.storedName name = name := rfl

end Aliases
end DocumentStore
