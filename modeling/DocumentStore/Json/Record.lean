import DocumentStore.Json.Tree

/-! Records read from JSON.

A record is written as an object, whose further members are passed over, or as an array of its
fields in the declared order, of which the last may be missing. A field written twice is refused. -/
namespace DocumentStore.Json.Tree

/-- What is written for each field of a record. -/
abbrev Fields := String → Option Tree

/-- The fields of a record with the given names. -/
def fields? (names : List String) : Tree → Option Fields
  | obj members =>
    let written := members.map Prod.fst
    if written.all Option.isSome && names.all fun name => written.count (some name) ≤ 1 then
      some fun name => (members.find? fun m => m.1 == some name).map Prod.snd
    else none
  | arr elements =>
    if elements.length ≤ names.length then some fun name => Entries.find? name (names.zip elements)
    else none
  | _ => none

/-! ### Single fields -/

def text? : Tree → Option String
  | str s => s
  | _ => none

def bool? : Tree → Option Bool
  | bool b => some b
  | _ => none

/-- An integer in the signed 64-bit range. -/
def signed? : Tree → Option Int
  | num n => n.bind Number.signed?
  | _ => none

/-- An integer in the unsigned 64-bit range. -/
def unsigned? : Tree → Option Nat
  | num n => n.bind Number.unsigned?
  | _ => none

def list? (read : Tree → Option α) : Tree → Option (List α)
  | arr elements => elements.mapM read
  | _ => none

/-- One of a fixed set of names, as a string or as the name of the only member, null, of an object. -/
def choice? (options : List (String × α)) : Tree → Option α
  | str (some s) => Entries.find? s options
  | obj [(some s, null)] => Entries.find? s options
  | _ => none

/-- A field that has to be there. -/
def required (read : Tree → Option α) (field : Option Tree) : Option α := field.bind read

/-- A field with a value for when it is not written. -/
def withDefault (missing : α) (read : Tree → Option α) : Option Tree → Option α
  | none => some missing
  | some t => read t

/-- A field that may be missing or null. -/
def nullable (read : Tree → Option α) : Option Tree → Option (Option α)
  | none | some null => some none
  | some t => (read t).map some

end DocumentStore.Json.Tree
