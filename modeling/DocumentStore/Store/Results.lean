import DocumentStore.Filter.Truth
import DocumentStore.Query.Basic
import DocumentStore.Store.Basic
import DocumentStore.Store.Projection
import DocumentStore.Store.Sorting

/-! What a store answers to a query, page by page.

The results of a query are the items of its partition that the filter keeps, in key order or sorted,
without those skipped and up to the limit. A page holds as many as asked for from an offset on, and
its token is the offset of the next one. Offsets are words: where no word holds the next one, the program
stops. -/
namespace DocumentStore
open Json (Value)

/-- What is left of a list behind those skipped, up to a limit where there is one. -/
def window (skip limit : Option Nat) (items : List α) : List α :=
  match limit with
  | some n => (items.drop (skip.getD 0)).take n
  | none => items.drop (skip.getD 0)

namespace Page

/-- The offset that a token stands for: a number in 64 bits, with a plus sign at most. -/
def offset? (token : String) : Option UInt64 :=
  let digits := match token.toList with
    | '+' :: rest => rest
    | cs => cs
  if digits.isEmpty || !digits.all Char.isDigit then none
  else
    let n := Text.Scan.digitsValue digits
    if n < Word.unsignedEnd then some (.ofNat n) else none

/-- Where the page that is asked for starts. -/
def start (token : Option String) : Result UInt64 :=
  match token with
  | none => .ok 0
  | some t =>
    match offset? t with
    | some n => .ok n
    | none => .error (.backend (some 400) ("invalid continuation token '" ++ t ++ "'"))

/-- The page of `size` items from an offset on, each cut down to the given fields. Where it ends is
calculated in words, also on the last page. -/
def ofResults (results : List Item) (fields : List String) (size offset : UInt64) : Result Page :=
  match Word.sum? offset size with
  | none => .error (.panic .overflow)
  | some next => .ok {
      items := ((results.drop offset.toNat).take size.toNat).map (·.project fields)
      continuation := if next.toNat < results.length then some (toString next) else none }

/-- The number of results, as the only row of a page. -/
def ofCount (n : Nat) : Page := { items := [OrderedMap.empty.insert "$1" (.int n)] }

end Page

/-- The items a query finds on a shelf, in key order. -/
def Shelf.matching (shelf : Shelf) (q : Query) : Result (List Item) :=
  select q.filter <| shelf.entries.filterMap fun (key, item) =>
    if q.partitionValue.all (· == key.partition) then some item else none

/-- What a query makes of the items it finds: their order, and the window it asks for. -/
def Query.arranged (q : Query) (sorter : Sorter) (found : List Item) : Result (List Item) := do
  return window q.skip q.limit (← sorter.sortBy q.sorting found)

/-- The page of a query behind a token; `pageSize` is for queries that set none. -/
def Store.page (pageSize : UInt64) (sorter : Sorter) (container : String) (q : Query)
    (token : Option String) (s : Store) : Result Page := do
  let offset ← Page.start token
  match s.containers.get? container with
  | none => return {}
  | some shelf =>
    let found ← shelf.matching q
    if q.count then return .ofCount found.length
    Page.ofResults (← q.arranged sorter found) q.projection (max 1 (q.pageSize.getD pageSize)) offset

end DocumentStore
