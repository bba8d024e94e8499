import DocumentStore.Json.Record

/-! How long a soft-deleted item is kept before the backend purges it. -/
namespace DocumentStore
open Json (Tree Value)

structure PurgeDelay where
  days : Int
deriving DecidableEq

namespace PurgeDelay

/-- The least and the greatest signed 64-bit integers. -/
def leastSeconds : Int := -Word.signedEnd
def mostSeconds : Int := Word.signedEnd - 1

/-- The delay in seconds, cut off at the ends of the signed 64-bit range. -/
def seconds (d : PurgeDelay) : Int := max leastSeconds (min mostSeconds (d.days * 86400))

def ofTree? (t : Tree) : Option PurgeDelay := do
  let field ← t.fields? ["purgeDeletedAfterDays"]
  return { days := ← Tree.required Tree.signed? (field "purgeDeletedAfterDays") }

def toValue (d : PurgeDelay) : Value := .record [("purgeDeletedAfterDays", .int d.days)]

end PurgeDelay
end DocumentStore
