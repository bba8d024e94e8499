import DocumentStore.Item

/-! Projections: items cut down to the fields a query asks for.

A field is a path with dots, and `path AS path` yields it under another one. No fields, or a field
with a `*`, ask for the whole item; a field that the item lacks is left out. -/
namespace DocumentStore
open Json (Value)

/-- Sets the value at a path within the members of an object, making the objects on the way. What
stands on the way and is no object keeps its place, and the value is dropped. -/
def insertAtMembers (v : Value) : List String → List (String × Value) → List (String × Value)
  | [], members => members
  | [name], members => Entries.insert name v members
  | name :: rest, members =>
    match Entries.find? name members with
    | none => Entries.insert name (.obj (insertAtMembers v rest [])) members
    | some (.obj inner) => Entries.insert name (.obj (insertAtMembers v rest inner)) members
    | some _ => members

namespace Item

/-- Sets the value at a path within an item. -/
def insertAt (item : Item) (v : Value) : List String → Item
  | [] => item
  | [name] => item.insert name v
  | name :: rest =>
    match item.get? name with
    | none => item.insert name (.obj (insertAtMembers v rest []))
    | some (.obj inner) => item.insert name (.obj (insertAtMembers v rest inner))
    | some _ => item

/-- Where a field is taken from, and where it is put. -/
def fieldPaths (field : String) : List String × List String :=
  match Text.cut? " AS ".toList field.toList with
  | some (source, target) => (dotted (String.ofList source), dotted (String.ofList target))
  | none => (dotted field, dotted field)

/-- Adds a field of an item to a projection of it. -/
def withField (item projection : Item) (field : String) : Item :=
  let (source, target) := fieldPaths field
  match item.at? source with
  | some v => projection.insertAt v target
  | none => projection

/-- The item cut down to the given fields. -/
def project (item : Item) (fields : List String) : Item :=
  if fields.isEmpty || fields.any fun field => field.toList.contains '*' then item
  else fields.foldl item.withField .empty

end Item
end DocumentStore
