/-! The limits of requests. -/
namespace DocumentStore.Limits

/-- Results of a search that sets no limit. -/
def defaultLimit : Nat := 100
/-- The most results a search may ask for. -/
def maxLimit : Nat := 500
/-- Results passed over by a search that sets no offset. -/
def defaultSkip : Nat := 0
/-- The most ids of one read. -/
def maxRead : Nat := 100
/-- The most items of one creation or deletion. -/
def maxWrite : Nat := 25
/-- Items of one round of a deletion by value, where the caller sets no number. -/
def deletionBatch : UInt64 := 500
/-- Items of one round of a clone, where the caller sets no number. -/
def cloneBatch : Nat := 500
/-- Items of one page of a query, where neither query nor store sets a number. -/
def pageSize : UInt64 := 100

end DocumentStore.Limits
