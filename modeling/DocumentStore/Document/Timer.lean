import DocumentStore.Document.Basic

/-! Timers: the documents of the container `timers`. -/
namespace DocumentStore
open Json (Tree Value)

structure Timer where
  id : String
  user : String
  label : String
  minutes : Int
  isDeleted : Option Bool := none
deriving DecidableEq

instance : Document Timer where
  container := "timers"
  toValue t :=
    .record <| [("timerId", .str t.id), ("userId", .str t.user), ("label", .str t.label),
      ("minutes", .int t.minutes)] ++ (t.isDeleted.map fun b => (Reserved.isDeleted, .bool b)).toList
  ofTree? t := do
    let field ← t.fields? ["timerId", "userId", "label", "minutes", Reserved.isDeleted]
    return {
      id := ← Tree.required Tree.text? (field "timerId")
      user := ← Tree.required Tree.text? (field "userId")
      label := ← Tree.required Tree.text? (field "label")
      minutes := ← Tree.required Tree.signed? (field "minutes")
      isDeleted := ← Tree.nullable Tree.bool? (field Reserved.isDeleted) }

end DocumentStore
