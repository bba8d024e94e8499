import DocumentStore.Proofs.Action.InOrder
import DocumentStore.Proofs.Schema.Registry
import DocumentStore.Proofs.Service.DeletionByValue
import DocumentStore.Proofs.Service.ReadBack

/-! What a deletion by ids takes out of a store in memory.

To delete an id is to take out what there is under it: an id that is missing yields nothing, and an id
that comes again finds nothing left. So the ids without their repetitions say what comes out
(`Store.listed`) and what is gone (`Store.Cleared`). Neither depends on the order in which the deletions
have their effects, but for the order of what comes out (`outcome_deleteByIds`). -/
namespace DocumentStore
open DocumentStore.Action

/-! ### Lists without repetitions -/

section Distinct
variable [DecidableEq α]

/-- Repetitions can be dropped before or after a filter. -/
theorem eraseDups_filter (p : α → Bool) :
    (xs : List α) → (xs.filter p).eraseDups = xs.eraseDups.filter p
  | [] => rfl
  | x :: xs => by
    have ih := eraseDups_filter p (xs.filter fun y => !y == x)
    rw [List.eraseDups_cons]
    cases hx : p x with
    | true =>
      rw [List.filter_cons_of_pos hx, List.filter_cons_of_pos hx, List.eraseDups_cons,
        ← List.filter_comm, ih]
    | false =>
      have hother : ∀ y ∈ xs, (p y && !y == x) = p y := by
        intro y _
        by_cases hy : y = x
        · rw [hy, hx, Bool.false_and]
        · simp [hy]
      rw [List.filter_cons_of_neg (by simp [hx]), List.filter_cons_of_neg (by simp [hx]), ← ih,
        List.filter_filter, List.filter_congr hother]
termination_by xs => xs.length
decreasing_by exact Nat.lt_succ_of_le (List.length_filter_le _ _)

theorem nodup_eraseDups : (xs : List α) → xs.eraseDups.Nodup
  | [] => List.nodup_nil
  | x :: xs => by
    rw [List.eraseDups_cons]
    refine List.nodup_cons.2 ⟨fun hmem => ?_, nodup_eraseDups _⟩
    simpa using (List.mem_filter.1 (List.mem_eraseDups.1 hmem)).2
termination_by xs => xs.length
decreasing_by exact Nat.lt_succ_of_le (List.length_filter_le _ _)

theorem perm_eraseDups {xs ys : List α} (h : xs.Perm ys) : xs.eraseDups.Perm ys.eraseDups := by
  refine (List.perm_ext_iff_of_nodup (nodup_eraseDups xs) (nodup_eraseDups ys)).2 fun x => ?_
  rw [List.mem_eraseDups, List.mem_eraseDups, h.mem_iff]

end Distinct

namespace Store

variable {container partition : String} {s s₁ s' : Store}

/-- The items of a partition that are there under some ids, each once, where its id comes first. -/
def listed (s : Store) (container partition : String) (ids : List String) : List Item :=
  ids.eraseDups.filterMap fun id => s.find? container ⟨partition, id⟩

/-- The second store is the first without what a partition has under some ids. -/
def Cleared (container partition : String) (ids : List String) (s s' : Store) : Prop :=
  ∀ other key, s'.find? other key =
    if other = container ∧ key.partition = partition ∧ key.id ∈ ids then none else s.find? other key

theorem Cleared.refl (container partition : String) (s : Store) : s.Cleared container partition [] s :=
  fun _ _ => (if_neg fun h => List.not_mem_nil h.2.2).symm

theorem Cleared.trans {ids ids' : List String} (h : s.Cleared container partition ids s₁)
    (h' : s₁.Cleared container partition ids' s') :
    s.Cleared container partition (ids ++ ids') s' := by
  intro other key
  rw [h', h]
  by_cases hplace : other = container ∧ key.partition = partition
  · by_cases hid : key.id ∈ ids <;> simp [hplace, hid]
  · simp only [← and_assoc, hplace, false_and, if_false]

theorem cleared_remove (s : Store) (container partition id : String) :
    s.Cleared container partition [id] (s.remove container ⟨partition, id⟩) := by
  intro other key
  obtain ⟨p, i⟩ := key
  simp only [find?_remove, ItemKey.mk.injEq, List.mem_singleton]

/-- An item that is missing is as good as cleared. -/
theorem cleared_of_find?_eq_none {id : String} (h : s.find? container ⟨partition, id⟩ = none) :
    s.Cleared container partition [id] s := by
  intro other key
  split
  · next hkey =>
    obtain ⟨rfl, rfl, hid⟩ := hkey
    obtain rfl := List.mem_singleton.1 hid
    exact h
  · rfl

/-- What is gone does not depend on the order of the ids. -/
theorem Cleared.perm {ids ids' : List String} (h : s.Cleared container partition ids s')
    (hperm : ids.Perm ids') : s.Cleared container partition ids' s' := by
  intro other key
  simp only [h other key, hperm.mem_iff]

theorem perm_listed {ids ids' : List String} (h : ids.Perm ids') :
    (s.listed container partition ids).Perm (s.listed container partition ids') :=
  (perm_eraseDups h).filterMap _

/-- When the first id has been cleared, the others yield what they do besides it. -/
theorem listed_cons {id : String} {rest : List String} (h : s.Cleared container partition [id] s₁) :
    s.listed container partition (id :: rest) =
      (s.find? container ⟨partition, id⟩).toList ++ s₁.listed container partition rest := by
  have hrest : ∀ other ∈ rest.eraseDups,
      (if !other == id then s.find? container ⟨partition, other⟩ else none) =
        s₁.find? container ⟨partition, other⟩ := by
    intro other _
    rw [h]
    by_cases hsame : other = id <;> simp [hsame]
  unfold listed
  rw [List.eraseDups_cons, eraseDups_filter, List.filterMap_cons, List.filterMap_filter,
    List.filterMap_congr hrest]
  cases s.find? container ⟨partition, id⟩ <;> rfl

end Store

namespace Service

variable {m : Memory} {registry : Registry} {hashing : HashOrder} {container : String} {schema : Schema}

/-! ### Deletions that are tried -/

/-- A deletion that is tried takes out what there is, and yields it. -/
theorem outcome_tryDelete (container partition id : String) (s : Store) :
    ∃ s', outcome (m.backend.delete container id partition).attempt s =
        (.ok (s.find? container ⟨partition, id⟩), s') ∧ s.Cleared container partition [id] s' := by
  rw [outcome_attempt]
  cases hfound : s.find? container ⟨partition, id⟩ with
  | none =>
    have hdelete : outcome (m.backend.delete container id partition) s =
        (.error (.notFound id container), s) := by
      show outcome (.ofChange (Store.delete container id partition)) s = _
      rw [outcome_ofChange, Store.delete, hfound]
    rw [hdelete]
    exact ⟨s, rfl, Store.cleared_of_find?_eq_none hfound⟩
  | some item =>
    have hdelete : outcome (m.backend.delete container id partition) s =
        (.ok item, s.remove container ⟨partition, id⟩) := by
      refine outcome_ofChange_eq_ok_iff.2 ?_
      rw [Store.delete, hfound]
    rw [hdelete]
    exact ⟨_, rfl, s.cleared_remove container partition id⟩

/-- Deletions that are tried one after the other. -/
theorem outcome_tryDeletes (container partition : String) (ids : List String) (s : Store) :
    ∃ outcomes s', outcome (ids.mapM fun id => (m.backend.delete container id partition).attempt) s =
        (.ok outcomes, s') ∧
      outcomes.filterMap (·) = s.listed container partition ids ∧
      s.Cleared container partition ids s' := by
  induction ids generalizing s with
  | nil => exact ⟨[], s, rfl, rfl, Store.Cleared.refl container partition s⟩
  | cons id rest ih =>
    obtain ⟨s₁, hfirst, hcleared⟩ := outcome_tryDelete (m := m) container partition id s
    obtain ⟨outcomes, s', hrest, hlisted, hclearedRest⟩ := ih s₁
    refine ⟨_, s', outcome_mapM_cons_eq_ok_iff.2 ⟨_, s₁, outcomes, hfirst, hrest, rfl⟩, ?_, ?_⟩
    · rw [Store.listed_cons hcleared, ← hlisted, List.filterMap_cons]
      cases s.find? container ⟨partition, id⟩ <;> rfl
    · exact hcleared.trans hclearedRest

/-! ### Deletions by ids -/

/-- Deletes items by id as `deleteByIds` does, except that the deletions have their effects in a given
order of their positions. -/
def deleteInOrder (s : Service) (container partition : String) (ids : List String) (order : List Nat) :
    Action (List Item) := do
  Checks.batch .delete Limits.maxWrite ids
  let schema ← s.schema container .delete
  let outcomes ← mapInOrder (fun id => (s.backend.delete container id partition).attempt) ids order
  return (outcomes.filterMap (·)).map (schema.external s.hashing)

theorem deleteInOrder_range (s : Service) (container partition : String) (ids : List String) :
    s.deleteInOrder container partition ids (List.range ids.length) =
      s.deleteByIds container partition ids := by
  unfold deleteInOrder deleteByIds
  rw [mapInOrder_range]

section Registered
variable {ids : List String} {s s' : Store} (hget : registry.schemas.get? container = some schema)
  (hids : ids ≠ []) (hmost : ids.length ≤ Limits.maxWrite)

include hget hids hmost

/-- Behind checks that pass a deletion yields what was there of what has been tried. -/
theorem outcome_deleteInOrder_of_tried {partition : String} {order : List Nat}
    {outcomes : List (Option Item)}
    (h : outcome (mapInOrder (fun id => (m.backend.delete container id partition).attempt) ids order)
      s = (.ok outcomes, s')) :
    outcome ((⟨m.backend, registry, hashing⟩ : Service).deleteInOrder container partition ids order) s =
      (.ok ((outcomes.filterMap (·)).map (schema.external hashing)), s') := by
  have hbatch : Checks.batch .delete Limits.maxWrite ids = .ok () := Checks.batch_eq_ok hids hmost
  have hschema : (⟨m.backend, registry, hashing⟩ : Service).schema container .delete = .ok schema :=
    Registry.resolve_eq_ok_iff.2 hget
  refine outcome_liftM_bind_eq_ok_iff.2 ⟨(), hbatch, ?_⟩
  refine outcome_liftM_bind_eq_ok_iff.2 ⟨schema, hschema, ?_⟩
  exact outcome_bind_eq_ok_iff.2 ⟨outcomes, s', h, rfl⟩

/-- In any order of all the ids, a deletion yields what is there of them and takes it out. -/
theorem exists_outcome_deleteInOrder (partition : String) {order : List Nat}
    (horder : order.Perm (List.range ids.length)) (s : Store) :
    ∃ returned s', outcome ((⟨m.backend, registry, hashing⟩ : Service).deleteInOrder container partition ids
        order) s = (.ok returned, s') ∧
      returned.Perm ((s.listed container partition ids).map (schema.external hashing)) ∧
      s.Cleared container partition ids s' := by
  have hperm := perm_map_fst_atPositions horder
  obtain ⟨outcomes, s', htried, hlisted, hcleared⟩ := outcome_tryDeletes (m := m) container partition
    ((atPositions ids order).map Prod.fst) s
  obtain ⟨inOrder, hrun, hsame⟩ := exists_outcome_mapInOrder htried
  refine ⟨_, s', outcome_deleteInOrder_of_tried hget hids hmost hrun, ?_, hcleared.perm hperm⟩
  refine ((hsame.filterMap _).trans ?_).map _
  rw [hlisted]
  exact Store.perm_listed hperm

/-- **A deletion by ids always comes out: it yields the items that are there of the ids, each once and
where its id comes first, and takes out exactly these. It shows them by a way back from stored names to external
ones. In whatever order the single deletions have their effects, and whatever way back that call draws, the same
items come out, if not in this order, and the same are gone; where the calls draw alike, or there is one way
back, they come out in the same form.** -/
theorem outcome_deleteByIds (hashing : HashOrder) (partition : String) (s : Store) :
    (∃ back, schema.aliases.WayBack back ∧ ∀ item : Item, item.ShowsBy back (schema.external hashing item)) ∧
    (∃ s', outcome ((⟨m.backend, registry, hashing⟩ : Service).deleteByIds container partition ids) s =
        (.ok ((s.listed container partition ids).map (schema.external hashing)), s') ∧
      s.Cleared container partition ids s') ∧
    ∀ order, order.Perm (List.range ids.length) → ∀ hashing', ∃ returned s',
      outcome ((⟨m.backend, registry, hashing'⟩ : Service).deleteInOrder container partition ids order) s =
        (.ok returned, s') ∧
      returned.Perm ((s.listed container partition ids).map (schema.external hashing')) ∧
      (schema.DrawsAlike hashing hashing' →
        returned.Perm ((s.listed container partition ids).map (schema.external hashing))) ∧
      s.Cleared container partition ids s' := by
  refine ⟨schema.exists_wayBack hashing, ?_, fun order horder hashing' => ?_⟩
  · obtain ⟨outcomes, s', htried, hlisted, hcleared⟩ :=
      outcome_tryDeletes (m := m) container partition ids s
    refine ⟨s', ?_, hcleared⟩
    rw [← mapInOrder_range] at htried
    rw [← deleteInOrder_range, ← hlisted]
    exact outcome_deleteInOrder_of_tried hget hids hmost htried
  · obtain ⟨returned, s', h, hreturned, hcleared⟩ :=
      exists_outcome_deleteInOrder hget hids hmost partition horder s
    exact ⟨returned, s', h, hreturned, fun hdraws => hdraws.external_eq ▸ hreturned, hcleared⟩

end Registered

theorem exists_deleteByIds_doneAndDeleted :
    (∃ s', outcome (itemsService.deleteByIds "items" "p" ["b", "none", "a", "b"]) doneAndDeleted =
        (.ok [deletedItem, doneItem], s') ∧
      s'.find? "items" ⟨"p", "a"⟩ = none ∧ s'.find? "items" ⟨"p", "b"⟩ = none) ∧
    ∃ returned s', outcome (itemsService.deleteInOrder "items" "p" ["b", "none", "a", "b"] [3, 1, 2, 0])
        doneAndDeleted = (.ok returned, s') ∧
      returned.Perm [deletedItem, doneItem] ∧
      s'.find? "items" ⟨"p", "a"⟩ = none ∧ s'.find? "items" ⟨"p", "b"⟩ = none := by
  have hlisted : (doneAndDeleted.listed "items" "p" ["b", "none", "a", "b"]).map (items.external .byKey) =
      [deletedItem, doneItem] := rfl
  have hids : ["b", "none", "a", "b"] ≠ [] := nofun
  obtain ⟨-, ⟨s', h, hcleared⟩, horders⟩ :=
    outcome_deleteByIds (m := {}) get?_items hids (by decide) .byKey "p" doneAndDeleted
  obtain ⟨returned, s'', h', hreturned, -, hcleared'⟩ := horders [3, 1, 2, 0] (by decide) .byKey
  rw [hlisted] at h hreturned
  refine ⟨⟨s', h, ?_, ?_⟩, returned, s'', h', hreturned, ?_, ?_⟩
  · rw [hcleared, if_pos (by decide)]
  · rw [hcleared, if_pos (by decide)]
  · rw [hcleared', if_pos (by decide)]
  · rw [hcleared', if_pos (by decide)]

end Service
end DocumentStore
