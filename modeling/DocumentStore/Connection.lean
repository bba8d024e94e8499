import DocumentStore.Error
import DocumentStore.Json.Record
import DocumentStore.Text.Blank
import DocumentStore.Text.Listing

/-! Connection settings: where the backend is and what opens it.

Settings that the caller leaves empty may be looked up by name, as in an environment. -/
namespace DocumentStore
open Json (Tree Value)

structure Connection where
  endpoint : String := ""
  database : String := ""
  key : String := ""
deriving DecidableEq

namespace Connection

/-! ### Names that settings are looked up by -/

def endpointName : String := "COSMOS_ENDPOINT"
def databaseName : String := "COSMOS_DATABASE_NAME"
def keyName : String := "COSMOS_KEY"

/-- A setting, or what is found for it where it is empty. -/
def filled (find : String → Option String) (name setting : String) : String :=
  if setting.isEmpty then (find name).getD setting else setting

/-- The settings, the empty ones filled in by a lookup. -/
def orLookup (c : Connection) (find : String → Option String) : Connection where
  endpoint := filled find endpointName c.endpoint
  database := filled find databaseName c.database
  key := filled find keyName c.key

/-- Fails on the first setting that is missing or blank. -/
def check (c : Connection) : Result Unit :=
  match [(c.endpoint, endpointName), (c.database, databaseName), (c.key, keyName)].find?
      fun setting => Text.isBlankText setting.1 with
  | some (_, name) => .error (.configuration (.missingSetting name))
  | none => .ok ()

def ofTree? (t : Tree) : Option Connection := do
  let field ← t.fields? ["endpointUri", "databaseName", "primaryKey"]
  return {
    endpoint := ← Tree.withDefault "" Tree.text? (field "endpointUri")
    database := ← Tree.withDefault "" Tree.text? (field "databaseName")
    key := ← Tree.withDefault "" Tree.text? (field "primaryKey") }

def toValue (c : Connection) : Value :=
  .record [("endpointUri", .str c.endpoint), ("databaseName", .str c.database),
    ("primaryKey", .str c.key)]

/-- The settings as a listing shows them, without the key. -/
def listing (c : Connection) : String :=
  "ConnectionConfig \x7b endpoint_uri: " ++ Text.listed c.endpoint ++ ", database_name: " ++
    Text.listed c.database ++ ", primary_key: " ++ Text.listed "<redacted>" ++ " \x7d"

end Connection
end DocumentStore
