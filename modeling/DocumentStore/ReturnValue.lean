import DocumentStore.Item
import DocumentStore.Json.Record

/-! Which states of an item an update reports. -/
namespace DocumentStore

inductive ReturnValue where
  | allNew
  | allOld
  | allOldNew
  | updatedNew
  | updatedOld
  | updatedOldNew
  | none
deriving Repr, DecidableEq

/-- The states of an item before and after an update, as far as they were asked for. -/
structure Update where
  old : Option Item := none
  new : Option Item := none

namespace ReturnValue

def names : List (String × ReturnValue) :=
  [("ALL_NEW", allNew), ("ALL_OLD", allOld), ("ALL_OLD_NEW", allOldNew),
    ("UPDATED_NEW", updatedNew), ("UPDATED_OLD", updatedOld), ("UPDATED_OLD_NEW", updatedOldNew),
    ("NONE", none)]

def name : ReturnValue → String
  | allNew => "ALL_NEW"
  | allOld => "ALL_OLD"
  | allOldNew => "ALL_OLD_NEW"
  | updatedNew => "UPDATED_NEW"
  | updatedOld => "UPDATED_OLD"
  | updatedOldNew => "UPDATED_OLD_NEW"
  | none => "NONE"

theorem find?_name (r : ReturnValue) : Entries.find? r.name names = some r := by cases r <;> decide

/-- What a backend is asked for: none of them reports both states. -/
def native : ReturnValue → ReturnValue
  | allOldNew => allOld
  | updatedOldNew => updatedOld
  | r => r

def includesOld : ReturnValue → Bool
  | allOld | allOldNew | updatedOld | updatedOldNew => true
  | _ => false

def includesNew : ReturnValue → Bool
  | allNew | allOldNew | updatedNew | updatedOldNew => true
  | _ => false

/-- The states that were asked for. -/
def report (r : ReturnValue) (old new : Item) : Update :=
  { old := if r.includesOld then some old else Option.none
    new := if r.includesNew then some new else Option.none }

end ReturnValue
end DocumentStore
