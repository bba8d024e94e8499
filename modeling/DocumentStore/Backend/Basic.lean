import DocumentStore.Action
import DocumentStore.Query.Basic

/-! Backends: what holds the items of containers, as those above them see it.

A backend is a record of calls. Each call is one step on the store; callers put several of them
together and ask for further pages themselves (`Backend.rows`). -/
namespace DocumentStore

structure Backend where
  /-- Files a new item in a partition. -/
  create : (container partition : String) → Item → Action Item
  read : (container id partition : String) → Action Item
  /-- The items that are there of a list of ids and partitions. -/
  readMany : (container : String) → List (String × String) → Action (List Item)
  /-- Files an item in place of an earlier one. -/
  replace : (container id partition : String) → Item → Action Item
  /-- Takes an item out. -/
  delete : (container id partition : String) → Action Item
  /-- The page of a query behind a token. -/
  query : (container : String) → Query → Option String → Action Page
  /-- No query of a store has more pages. -/
  mostPages : Store → Nat

/-- Pages asked for one after the other, each with the token of the one before it, until one comes
without a token, or `most` have come. -/
def pagesFrom [Monad m] (ask : Option String → m Page) : Nat → Option String → m (List Page)
  | 0, _ => pure []
  | most + 1, token => do
    let page ← ask token
    match page.continuation with
    | none => return [page]
    | some next => return page :: (← pagesFrom ask most (some next))

namespace Backend

/-- All pages of a query. -/
def pages (b : Backend) (container : String) (q : Query) : Action (List Page) := do
  pagesFrom (b.query container q) (b.mostPages (← get)) none

/-- The results on all pages of a query. -/
def rows (b : Backend) (container : String) (q : Query) : Action (List Item) := do
  return (← b.pages container q).flatMap Page.items

end Backend
end DocumentStore
