import DocumentStore.Backend.Basic
import DocumentStore.Store.Results

/-! Backends that fail where they are told to, for trying out what callers make of it.

Of a list of faults the first that a call meets takes its place; calls that meet none go through. A
fault may also answer a query, with pages of its own. -/
namespace DocumentStore

inductive Call where
  | create
  | read
  | readMany
  | replace
  | delete
  | query
deriving Repr, DecidableEq

structure Fault where
  call : Call
  /-- The item that the call has to be for, where it matters. -/
  id : Option String := none
  /-- The status and text of the failure. -/
  status : Option Nat := none
  text : String := ""
  /-- What a query answers in place of failing. -/
  pages : Option (List (List Item)) := none

namespace Fault

/-- The fault that a call for an item, or for none, meets. -/
def met? (faults : List Fault) (call : Call) (id : Option String) : Option Fault :=
  faults.find? fun f => f.call == call && (f.id.isNone || f.id == id)

/-- The failure that takes the place of a call. -/
def error (f : Fault) : Error := .backend f.status f.text

/-- The call, unless it meets a fault. -/
def guard (faults : List Fault) (call : Call) (id : Option String) (through : Action α) : Action α :=
  match met? faults call id with
  | some f => throw f.error
  | none => through

/-- The page of given ones behind a token, which is the page's number. -/
def page (pages : List (List Item)) (token : Option String) : Page :=
  let n := ((token.bind Page.offset?).getD 0).toNat
  { items := pages[n]?.getD []
    continuation := if n + 1 < pages.length then some (toString (n + 1)) else none }

end Fault

/-- The backend, failing where the faults say. -/
def Backend.withFaults (b : Backend) (faults : List Fault) : Backend where
  create container partition item :=
    Fault.guard faults .create item.id? (b.create container partition item)
  read container id partition := Fault.guard faults .read (some id) (b.read container id partition)
  readMany container keys := Fault.guard faults .readMany none (b.readMany container keys)
  replace container id partition item :=
    Fault.guard faults .replace (some id) (b.replace container id partition item)
  delete container id partition :=
    Fault.guard faults .delete (some id) (b.delete container id partition)
  query container q token :=
    match Fault.met? faults .query none with
    | some { pages := some pages, .. } => return Fault.page pages token
    | some f => throw f.error
    | none => b.query container q token
  mostPages s :=
    faults.foldl (fun most f => max most ((f.pages.getD []).length + 1)) (b.mostPages s)

end DocumentStore
