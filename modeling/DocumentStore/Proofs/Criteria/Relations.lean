import DocumentStore.Criteria.Reader
import DocumentStore.Proofs.Criteria.Leaves
import DocumentStore.Proofs.Result

/-! The operators of leaves.

And and Or are read as joins, and nodes of Not and Contains as no criteria at all, so the leaves of
criteria that are read have one of the other operators (`relations_of_ofValue`). -/
namespace DocumentStore

/-- The operators that leaves are read with: neither joins, nor Not and Contains. -/
def Operator.isRelation : Operator → Bool
  | and | or | not | contains => false
  | _ => true

namespace Criteria
open Json (Value)

/-- The leaves of a tree have operators of leaves. -/
def Relations (c : Criteria) : Prop := ∀ l ∈ c.leaves, l.op.isRelation = true

theorem op_of_leafOf {op : Operator} {members : List (String × Value)} {l : Leaf}
    (h : leafOf op members = .ok l) : l.op = op := by
  unfold leafOf at h
  dsimp only at h
  split at h
  · split at h
    · cases h
    · obtain ⟨name, -, h⟩ := Result.bind_eq_ok_iff.1 h
      obtain ⟨operand, -, h⟩ := Result.bind_eq_ok_iff.1 h
      cases h
      rfl
  · cases h

theorem relations_leafOf {op : Operator} {members : List (String × Value)} {result : Option Criteria}
    (hop : op.isRelation = true)
    (h : (fun l => some (leaf l)) <$> leafOf op members = .ok result) :
    ∀ c, result = some c → c.Relations := by
  obtain ⟨l, hl, rfl⟩ := Result.map_eq_ok_iff.1 h
  intro c hc l' hl'
  cases hc
  obtain rfl := List.mem_singleton.1 hl'
  rw [op_of_leafOf hl]
  exact hop

/-- **Criteria that are read have operators of leaves on their leaves.** -/
theorem relations_of_ofValue {v : Value} {c : Criteria} (h : ofValue v = .ok (some c)) :
    c.Relations := by
  suffices ∀ result, ofValue v = .ok result → ∀ c, result = some c → c.Relations from
    this _ h c rfl
  refine ofValue.induct (fun v => ∀ result, ofValue v = .ok result → ∀ c, result = some c → c.Relations)
    (fun op members => ∀ result, joinOf op members = .ok result → ∀ c, result = some c → c.Relations)
    (fun vs => ∀ cs, ofValues vs = .ok cs → ∀ c ∈ cs, c.Relations) ?_ ?_ ?_ ?_ ?_ ?_ ?_ ?_ v
  · intro result h
    rw [ofValue] at h
    cases h
    exact nofun
  · intro result h
    rw [ofValue] at h
    cases h
    exact nofun
  · intro members hne hand hor result h
    rw [ofValue] at h
    · obtain ⟨op, -, h⟩ := Result.bind_eq_ok_iff.1 h
      cases op with
      | and => exact hand result h
      | or => exact hor result h
      | not | contains =>
        cases h
        exact nofun
      | eq | ne | lt | lte | gt | gte | member | between => exact relations_leafOf rfl h
    · exact hne
  · intro v hnull hnil hobj result h
    rw [ofValue] at h
    · cases h
    · exact hnull
    · exact hnil
    · exact hobj
  · intro op members terms hterms _ ih result h
    rw [joinOf] at h
    split at h
    · next terms' hterms' =>
      obtain rfl := Except.ok.inj (hterms.symm.trans hterms')
      obtain ⟨read, hread, h⟩ := Result.bind_eq_ok_iff.1 h
      cases h
      intro c hc l hl
      cases hc
      rw [leaves_join, List.mem_flatMap] at hl
      obtain ⟨t, ht, hl⟩ := hl
      exact ih read hread t ht l hl
    · cases h
  · intro op members e hterms result h
    rw [joinOf] at h
    split at h
    · next terms' hterms' =>
      rw [hterms] at hterms'
      cases hterms'
    · cases h
  · intro cs h
    rw [ofValues] at h
    cases h
    exact nofun
  · intro v rest hv hrest cs h
    rw [ofValues] at h
    obtain ⟨first, hfirst, h⟩ := Result.bind_eq_ok_iff.1 h
    obtain ⟨others, hothers, h⟩ := Result.bind_eq_ok_iff.1 h
    cases h
    intro c hc
    rcases List.mem_append.1 hc with hc | hc
    · exact hv first hfirst c (Option.mem_toList.1 hc)
    · exact hrest others hothers c hc

end Criteria
end DocumentStore
