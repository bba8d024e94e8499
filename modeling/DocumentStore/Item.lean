import DocumentStore.Json.Printer
import DocumentStore.Reserved
import DocumentStore.Text.Segments

/-! Items: the JSON objects that containers hold, and the paths that lead into them.

Two notations name a path: dots between names in queries, slashes in partition key paths. Both come
down to a list of names, and `Item.at?` follows it. -/
namespace DocumentStore
open Json (Value)

/-- A JSON object held by a container. -/
abbrev Item := OrderedMap String Value

namespace Item

def toValue (item : Item) : Value := .obj item.entries

/-- The item of a JSON object. -/
def ofValue? : Value → Option Item
  | .obj members => some (OrderedMap.ofList members)
  | _ => none

/-- The item's identifier, where it is a string. -/
def id? (item : Item) : Option String := (item.get? Reserved.id).bind Value.text?

/-- The value reached by following names from the outside in; no name reaches nothing. -/
def at? (item : Item) : List String → Option Value
  | [] => none
  | name :: rest => (item.get? name).bind (·.at? rest)

/-- The names of a path written with dots. -/
def dotted (path : String) : List String := Text.split '.' path

/-- The names of a path written with slashes, of which leading ones do not count. -/
def slashed (path : String) : List String := Text.split '/' (Text.dropLeading '/' path)

/-- The value at a path written with dots. -/
def lookup? (item : Item) (path : String) : Option Value := item.at? (dotted path)

/-- The value at a path written with slashes. -/
def atKeyPath? (item : Item) (path : String) : Option Value := item.at? (slashed path)

/-- A scalar as a partition value. Null, arrays and objects name no partition. -/
def keyText? : Value → Option String
  | .str s => some s
  | .num n => some n.text
  | .bool b => some (if b then "true" else "false")
  | _ => none

/-- The item without what the backend stamps. -/
def withoutSystemFields (item : Item) : Item := Reserved.systemFields.foldl OrderedMap.erase item

end Item
end DocumentStore
