import DocumentStore.Json.Record
import DocumentStore.Schema.Basic

/-! Schemas read from JSON and written as JSON. -/
namespace DocumentStore
open Json (Tree Value)

/-- The names of the attribute types. -/
def AttributeType.names : List (String × AttributeType) :=
  [("String", string), ("Number", number), ("Long", long), ("DateTime", dateTime),
    ("Boolean", boolean), ("Object", object)]

def AttributeType.name : AttributeType → String
  | string => "String"
  | number => "Number"
  | long => "Long"
  | dateTime => "DateTime"
  | boolean => "Boolean"
  | object => "Object"

theorem AttributeType.find?_name (t : AttributeType) : Entries.find? t.name names = some t := by
  cases t <;> decide

def Attribute.ofTree? (t : Tree) : Option Attribute := do
  let field ← t.fields? ["name", "dbName", "type"]
  return {
    name := ← Tree.required Tree.text? (field "name")
    stored := ← Tree.nullable Tree.text? (field "dbName")
    type := ← Tree.withDefault .string (Tree.choice? AttributeType.names) (field "type") }

def Attribute.toValue (a : Attribute) : Value :=
  .record [("name", .str a.name), ("dbName", .ofOption .str a.stored), ("type", .str a.type.name)]

def Expiry.ofTree? (t : Tree) : Option Expiry := do
  let field ← t.fields? ["attributeName", "enabled", "ttlInSeconds"]
  return {
    source := ← Tree.required Tree.text? (field "attributeName")
    enabled := ← Tree.withDefault true Tree.bool? (field "enabled")
    lifetime := ← Tree.nullable Tree.signed? (field "ttlInSeconds") }

def Expiry.toValue (e : Expiry) : Value :=
  .record [("attributeName", .str e.source), ("enabled", .bool e.enabled),
    ("ttlInSeconds", .ofOption .int e.lifetime)]

namespace Schema

/-- The paths of the partition and sort key. -/
def keysOfTree? (t : Tree) : Option (String × Option String) := do
  let field ← t.fields? ["partitionKeyPath", "sortKeyPath"]
  return (← Tree.required Tree.text? (field "partitionKeyPath"),
    ← Tree.nullable Tree.text? (field "sortKeyPath"))

/-- The keys and the attributes of a container. -/
def contentsOfTree? (t : Tree) : Option ((String × Option String) × List Attribute) := do
  let field ← t.fields? ["keyConfiguration", "attributes"]
  return (← Tree.required keysOfTree? (field "keyConfiguration"),
    ← Tree.withDefault [] (Tree.list? Attribute.ofTree?) (field "attributes"))

def ofTree? (t : Tree) : Option Schema := do
  let field ← t.fields? ["containerName", "schema", "aliasProcessingEnabled", "timeToLive"]
  let container ← Tree.required Tree.text? (field "containerName")
  let ((partitionKeyPath, sortKeyPath), attributes) ←
    Tree.required contentsOfTree? (field "schema")
  return {
    container, partitionKeyPath, sortKeyPath, attributes
    aliased := ← Tree.withDefault false Tree.bool? (field "aliasProcessingEnabled")
    expiry := ← Tree.nullable Expiry.ofTree? (field "timeToLive") }

def toValue (s : Schema) : Value :=
  .record [
    ("containerName", .str s.container),
    ("schema", .record [
      ("keyConfiguration", .record [
        ("partitionKeyPath", .str s.partitionKeyPath),
        ("sortKeyPath", .ofOption .str s.sortKeyPath)]),
      ("attributes", .arr (s.attributes.map Attribute.toValue))]),
    ("aliasProcessingEnabled", .bool s.aliased),
    ("timeToLive", .ofOption Expiry.toValue s.expiry)]

end Schema
end DocumentStore
