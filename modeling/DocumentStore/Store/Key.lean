import DocumentStore.OrderedMap

/-! What an item is filed under within its container: the partition first, the identifier second. -/
namespace DocumentStore

structure ItemKey where
  partition : String
  id : String
deriving DecidableEq

namespace ItemKey

instance : Ord ItemKey := ⟨compareLex (compareOn partition) (compareOn id)⟩

instance : Std.TransOrd ItemKey :=
  inferInstanceAs (Std.TransCmp (compareLex (compareOn partition) (compareOn id)))

instance : Std.LawfulEqOrd ItemKey where
  eq_of_compare {a b} h := by
    obtain ⟨p, i⟩ := a
    obtain ⟨q, j⟩ := b
    obtain ⟨hp, hi⟩ := Ordering.then_eq_eq.1 h
    have hp : p = q := Std.LawfulEqOrd.eq_of_compare hp
    have hi : i = j := Std.LawfulEqOrd.eq_of_compare hi
    rw [hp, hi]

end ItemKey
end DocumentStore
