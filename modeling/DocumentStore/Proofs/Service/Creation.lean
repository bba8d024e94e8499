import DocumentStore.Proofs.Action.Effects
import DocumentStore.Proofs.Action.InOrder
import DocumentStore.Proofs.Item
import DocumentStore.Proofs.Schema.Registry
import DocumentStore.Proofs.Service.DeletionByValue
import DocumentStore.Proofs.Service.WayBack
import DocumentStore.Service.Creation

/-! Creations whose items are filed in any order.

Filing an item touches the place under its own key alone. So whether all of a creation's items are filed
does not depend on their order: they are if each has a key, the keys differ from each other, and none is
taken (`Store.HasRoom`). What callers get is put together in the order of the items, and shows nothing of
the stamps that the order has an effect on (`outcome_createInOrder`). However far a creation comes, it
only adds items of its own (`Store.Adds`). -/
namespace DocumentStore
open DocumentStore.Action

variable {m : Memory} {registry : Registry} {hashing : HashOrder} {container : String} {schema : Schema}
  {s s' : Store}

/-- The key that a prepared item is filed under, where it has an id. -/
def fileKey? (p : String × Item) : Option ItemKey := p.2.id?.map fun id => ⟨p.1, id⟩

/-- What is prepared of an item is the item with its expiry under stored names, and the partition that
its partition key names. -/
theorem Schema.prepare_eq_ok_iff {item : Item} {p : String × Item} :
    schema.prepare item = .ok p ↔ ∃ derived, item.withExpiry schema.expirySource = .ok derived ∧
      p.2 = schema.aliases.storedItem derived ∧ schema.partitionOf p.2 = .ok p.1 := by
  rw [prepare, Result.bind_eq_ok_iff]
  refine exists_congr fun derived => and_congr_right fun _ => ?_
  rw [Result.bind_eq_ok_iff]
  constructor
  · intro h
    obtain ⟨_, hpartition, h⟩ := h
    cases h
    exact ⟨rfl, hpartition⟩
  · intro h
    obtain ⟨partition, stored⟩ := p
    obtain ⟨rfl, hpartition⟩ := h
    exact ⟨partition, hpartition, rfl⟩

namespace Store

/-- Every item has a key, no two of them the same, and under none of the keys there is an item. -/
structure HasRoom (s : Store) (container : String) (prepared : List (String × Item)) : Prop where
  distinct : (prepared.map fileKey?).Nodup
  free : ∀ p ∈ prepared, ∃ key, fileKey? p = some key ∧ s.find? container key = none

/-- The second store has what is in the first, and besides only prepared items in a container, each
under its own key. -/
structure Adds (stamp : Nat → Stamp) (container : String) (prepared : List (String × Item))
    (s s' : Store) : Prop where
  keeps : ∀ other key item, s.find? other key = some item → s'.find? other key = some item
  only : ∀ other key item, s'.find? other key = some item → s.find? other key = some item ∨
    other = container ∧ ∃ p ∈ prepared, fileKey? p = some key ∧
      ∃ n, item = p.2.stamped (stamp n) container

instance {stamp : Nat → Stamp} {prepared : List (String × Item)} :
    IsPreorder Store (Adds stamp container prepared) where
  refl _ := ⟨fun _ _ _ h => h, fun _ _ _ h => .inl h⟩
  trans _ _ _ h h' := by
    refine ⟨fun other key item hitem => h'.keeps _ _ _ (h.keeps _ _ _ hitem), ?_⟩
    intro other key item hitem
    obtain hitem | hnew := h'.only other key item hitem
    · exact h.only other key item hitem
    · exact .inr hnew

theorem HasRoom.perm {prepared prepared' : List (String × Item)} (h : s.HasRoom container prepared)
    (hperm : prepared.Perm prepared') : s.HasRoom container prepared' where
  distinct := (hperm.map fileKey?).nodup_iff.1 h.distinct
  free p hp := h.free p (hperm.mem_iff.2 hp)

/-- There is room for several items exactly if there is for the first, and for the others when it is
filed, as whatever item. -/
theorem hasRoom_cons_iff (item : Item) {p : String × Item} {rest : List (String × Item)} :
    s.HasRoom container (p :: rest) ↔ ∃ key, fileKey? p = some key ∧ s.find? container key = none ∧
      (s.put container key item).HasRoom container rest := by
  constructor
  · intro h
    obtain ⟨key, hkey, hfree⟩ := h.free p List.mem_cons_self
    obtain ⟨hfresh, hdistinct⟩ := List.nodup_cons.1 h.distinct
    refine ⟨key, hkey, hfree, hdistinct, fun q hq => ?_⟩
    obtain ⟨key', hkey', hfree'⟩ := h.free q (List.mem_cons_of_mem p hq)
    refine ⟨key', hkey', ?_⟩
    rw [find?_put, if_neg]
    · exact hfree'
    · intro hsame
      rw [hkey, ← hsame.2, ← hkey'] at hfresh
      exact hfresh (List.mem_map_of_mem hq)
  · intro h
    obtain ⟨key, hkey, hfree, hrest⟩ := h
    have hother : ∀ q ∈ rest, ∃ key', fileKey? q = some key' ∧ key' ≠ key ∧
        s.find? container key' = none := by
      intro q hq
      obtain ⟨key', hkey', hfree'⟩ := hrest.free q hq
      rw [find?_put] at hfree'
      split at hfree'
      · cases hfree'
      · next hne => exact ⟨key', hkey', fun hsame => hne ⟨rfl, hsame⟩, hfree'⟩
    refine ⟨List.nodup_cons.2 ⟨fun hmem => ?_, hrest.distinct⟩, List.forall_mem_cons.2 ⟨?_, ?_⟩⟩
    · obtain ⟨q, hq, hsame⟩ := List.mem_map.1 hmem
      obtain ⟨key', hkey', hne, -⟩ := hother q hq
      rw [hkey', hkey] at hsame
      exact hne (Option.some.inj hsame)
    · exact ⟨key, hkey, hfree⟩
    · intro q hq
      obtain ⟨key', hkey', -, hfree'⟩ := hother q hq
      exact ⟨key', hkey', hfree'⟩

end Store

/-! ### Single writes -/

/-- An item is filed, stamped, exactly if it has a key and the place under it is free. -/
theorem Store.create_eq_ok_iff {stamp : Nat → Stamp} {p : String × Item} {item : Item} :
    Store.create stamp container p.1 p.2 s = .ok (item, s') ↔
      ∃ key, fileKey? p = some key ∧ s.find? container key = none ∧
        item = p.2.stamped (stamp s.writes) container ∧ s' = s.put container key item := by
  unfold Store.create fileKey?
  cases p.2.id? with
  | none => exact ⟨nofun, nofun⟩
  | some id =>
    show (if _ then _ else _) = _ ↔ _
    split
    · next htaken =>
      refine ⟨nofun, fun h => ?_⟩
      obtain ⟨key, hkey, hfree, -⟩ := h
      cases hkey
      rw [hfree] at htaken
      cases htaken
    · next hfree =>
      constructor
      · intro h
        cases h
        exact ⟨_, rfl, Option.not_isSome_iff_eq_none.1 hfree, rfl, rfl⟩
      · intro h
        obtain ⟨key, hkey, -, rfl, rfl⟩ := h
        cases hkey
        rfl

namespace Service

/-- Files a prepared item. -/
def write (s : Service) (container : String) (p : String × Item) : Action Item :=
  s.backend.create container p.1 p.2

theorem outcome_write_eq_ok_iff {p : String × Item} {item : Item} :
    outcome ((⟨m.backend, registry, hashing⟩ : Service).write container p) s = (.ok item, s') ↔
      ∃ key, fileKey? p = some key ∧ s.find? container key = none ∧
        item = p.2.stamped (m.stamp s.writes) container ∧ s' = s.put container key item :=
  outcome_ofChange_eq_ok_iff.trans Store.create_eq_ok_iff

theorem moves_write {prepared : List (String × Item)} {p : String × Item} (h : p ∈ prepared) :
    Moves (Store.Adds m.stamp container prepared)
      ((⟨m.backend, registry, hashing⟩ : Service).write container p) := by
  refine moves_ofChange fun s s' item hcreate => ?_
  obtain ⟨key, hkey, hfree, hitem, rfl⟩ := Store.create_eq_ok_iff.1 hcreate
  refine ⟨fun other key' item' hitem' => ?_, fun other key' item' hitem' => ?_⟩
  · rw [Store.find?_put, if_neg]
    · exact hitem'
    · intro hsame
      rw [hsame.1, hsame.2, hfree] at hitem'
      cases hitem'
  · rw [Store.find?_put] at hitem'
    split at hitem'
    · next hsame =>
      cases hitem'
      obtain ⟨rfl, rfl⟩ := hsame
      exact .inr ⟨rfl, p, h, hkey, s.writes, hitem⟩
    · exact .inl hitem'

/-! ### Several writes -/

/-- All items are filed exactly if there is room for them. -/
theorem exists_outcome_writes_iff {prepared : List (String × Item)} :
    (∃ filed s', outcome (prepared.mapM ((⟨m.backend, registry, hashing⟩ : Service).write container)) s =
      (.ok filed, s')) ↔ s.HasRoom container prepared := by
  induction prepared generalizing s with
  | nil => exact ⟨fun _ => ⟨List.nodup_nil, nofun⟩, fun _ => ⟨[], s, rfl⟩⟩
  | cons p rest ih =>
    rw [Store.hasRoom_cons_iff (p.2.stamped (m.stamp s.writes) container)]
    constructor
    · intro h
      obtain ⟨filed, s', h⟩ := h
      obtain ⟨first, s₁, others, hfirst, hrest, -⟩ := outcome_mapM_cons_eq_ok_iff.1 h
      obtain ⟨key, hkey, hfree, rfl, rfl⟩ := outcome_write_eq_ok_iff.1 hfirst
      exact ⟨key, hkey, hfree, ih.1 ⟨others, s', hrest⟩⟩
    · intro h
      obtain ⟨key, hkey, hfree, hroom⟩ := h
      obtain ⟨others, s', hrest⟩ := ih.2 hroom
      exact ⟨_, s', outcome_mapM_cons_eq_ok_iff.2
        ⟨_, _, others, outcome_write_eq_ok_iff.2 ⟨key, hkey, hfree, rfl, rfl⟩, hrest, rfl⟩⟩

/-- The item is in the store as a creation files it. -/
def FiledAs (m : Memory) (container : String) (s : Store) (p : String × Item) (item : Item) : Prop :=
  ∃ key n, fileKey? p = some key ∧ s.find? container key = some item ∧
    item = p.2.stamped (m.stamp n) container

/-- Callers see nothing of how the item has been stamped. -/
theorem external_of_filedAs {p : String × Item} {item : Item} (h : FiledAs m container s p item) :
    schema.external hashing item = schema.external hashing p.2 := by
  obtain ⟨_, _, -, -, rfl⟩ := h
  rw [Schema.external, Item.withoutSystemFields_stamped, Schema.external]

theorem map_external_of_filedAs {prepared : List (String × Item)} {filed : List Item}
    (h : List.Forall₂ (FiledAs m container s) prepared filed) :
    filed.map (schema.external hashing) = prepared.map fun p => schema.external hashing p.2 := by
  rw [← List.forall₂_eq_eq_eq, List.forall₂_map_left_iff, List.forall₂_map_right_iff]
  exact h.flip.imp fun item p h => external_of_filedAs h

/-- What has been filed is still there in the end, as nothing is filed in its place. -/
theorem filedAs_of_outcome_writes {prepared : List (String × Item)} {filed : List Item}
    (h : outcome (prepared.mapM ((⟨m.backend, registry, hashing⟩ : Service).write container)) s =
      (.ok filed, s')) :
    List.Forall₂ (FiledAs m container s') prepared filed := by
  induction prepared generalizing s filed with
  | nil =>
    cases h
    exact .nil
  | cons p rest ih =>
    obtain ⟨first, s₁, others, hfirst, hrest, rfl⟩ := outcome_mapM_cons_eq_ok_iff.1 h
    obtain ⟨key, hkey, -, rfl, rfl⟩ := outcome_write_eq_ok_iff.1 hfirst
    refine .cons ⟨key, s.writes, hkey, ?_, rfl⟩ (ih hrest)
    have hmoves : Moves (Store.Adds m.stamp container rest)
        (rest.mapM ((⟨m.backend, registry, hashing⟩ : Service).write container)) :=
      moves_mapM fun p hp => moves_write hp
    have hadds := hmoves (s.put container key (p.2.stamped (m.stamp s.writes) container))
    rw [hrest] at hadds
    refine hadds.keeps container key _ ?_
    rw [Store.find?_put, if_pos ⟨rfl, rfl⟩]

/-! ### Creations -/

/-- Creates items as `create` does, except that they are filed in a given order of their positions. -/
def createInOrder (s : Service) (container : String) (items : List Item) (order : List Nat) :
    Action (List Item) := do
  Checks.batch .insert Limits.maxWrite items
  let schema ← s.schema container .insert
  let prepared ← (items.mapM schema.prepare : Result _)
  return (← mapInOrder (s.write container) prepared order).map (schema.external s.hashing)

/-- A creation files its items in their own order. -/
theorem createInOrder_range (s : Service) (container : String) (items : List Item) :
    s.createInOrder container items (List.range items.length) = s.create container items := by
  unfold createInOrder create
  refine bind_congr fun _ => bind_congr fun schema => ?_
  cases hprepared : items.mapM schema.prepare with
  | error e => rfl
  | ok prepared =>
    show (mapInOrder (s.write container) prepared _ >>= _) = (s.file container prepared >>= _)
    rw [(Result.mapM_eq_ok_iff.1 hprepared).length_eq, mapInOrder_range]
    rfl

section Prepared
variable {items : List Item} {prepared : List (String × Item)}
  (hbatch : Checks.batch .insert Limits.maxWrite items = .ok ())
  (hget : registry.schemas.get? container = some schema)
  (hprepared : items.mapM schema.prepare = .ok prepared)

include hbatch hget hprepared

/-- Behind checks that pass a creation is its writes. -/
theorem createInOrder_eq (order : List Nat) :
    (⟨m.backend, registry, hashing⟩ : Service).createInOrder container items order = do
      return (← mapInOrder ((⟨m.backend, registry, hashing⟩ : Service).write container) prepared order).map
        (schema.external hashing) := by
  have hschema : (⟨m.backend, registry, hashing⟩ : Service).schema container .insert = .ok schema :=
    Registry.resolve_eq_ok_iff.2 hget
  unfold createInOrder
  rw [hbatch, hschema]
  show ((liftM (items.mapM schema.prepare) : Action _) >>= _) = _
  rw [hprepared]
  rfl

theorem moves_createInOrder (order : List Nat) :
    Moves (Store.Adds m.stamp container prepared)
      ((⟨m.backend, registry, hashing⟩ : Service).createInOrder container items order) := by
  rw [createInOrder_eq hbatch hget hprepared]
  exact moves_bind (moves_mapInOrder (fun p hp => moves_write hp) order) fun _ => moves_pure _

theorem exists_outcome_createInOrder_iff {order : List Nat}
    (horder : order.Perm (List.range items.length)) :
    (∃ created s', outcome ((⟨m.backend, registry, hashing⟩ : Service).createInOrder container items order) s =
      (.ok created, s')) ↔ s.HasRoom container prepared := by
  have hperm : ((atPositions prepared order).map Prod.fst).Perm prepared :=
    perm_map_fst_atPositions ((Result.mapM_eq_ok_iff.1 hprepared).length_eq ▸ horder)
  have hwrites : (∃ filed s', outcome (((atPositions prepared order).map Prod.fst).mapM
      ((⟨m.backend, registry, hashing⟩ : Service).write container)) s = (.ok filed, s')) ↔
        s.HasRoom container prepared := by
    rw [exists_outcome_writes_iff]
    exact ⟨fun h => h.perm hperm, fun h => h.perm hperm.symm⟩
  rw [createInOrder_eq hbatch hget hprepared, ← hwrites]
  simp only [outcome_bind_eq_ok_iff, outcome_mapInOrder_eq_ok_iff]
  constructor
  · intro h
    obtain ⟨_, _, _, _, ⟨filed, h, -⟩, -⟩ := h
    exact ⟨filed, _, h⟩
  · intro h
    obtain ⟨filed, s', h⟩ := h
    exact ⟨_, s', _, s', ⟨filed, h, rfl⟩, rfl⟩

/-- What a creation yields, and where it leaves it. -/
theorem outcome_createInOrder {order : List Nat} (horder : order.Perm (List.range items.length))
    {created : List Item}
    (h : outcome ((⟨m.backend, registry, hashing⟩ : Service).createInOrder container items order) s =
      (.ok created, s')) :
    created = prepared.map (fun p => schema.external hashing p.2) ∧
      ∃ filed, List.Forall₂ (FiledAs m container s') prepared filed := by
  rw [createInOrder_eq hbatch hget hprepared] at h
  obtain ⟨filed, _, h, hpure⟩ := outcome_bind_eq_ok_iff.1 h
  cases hpure
  have hfiled : List.Forall₂ (FiledAs m container s') prepared filed :=
    forall₂_of_outcome_mapInOrder ((Result.mapM_eq_ok_iff.1 hprepared).length_eq ▸ horder)
      (fun _ => filedAs_of_outcome_writes) h
  exact ⟨map_external_of_filedAs hfiled, _, hfiled⟩

/-- **In whatever order the items of a creation are filed, it comes out exactly if there is room for all
of them, and then yields them in their own order, each as the call shows what is prepared of it. So it
yields the same in another call that draws the same way back to external names, and in any where there is
one way back. However many of them have been filed, what was in the store is as it was, and what is new are
items of the creation under their own keys.** -/
theorem outcome_createInOrder_eq_create (hashing : HashOrder) (s : Store) :
    ((outcome ((⟨m.backend, registry, hashing⟩ : Service).create container items) s).1.isOk = true ↔
      s.HasRoom container prepared) ∧
    ∀ order, order.Perm (List.range items.length) →
      (∀ hashing', schema.DrawsAlike hashing hashing' →
        (outcome ((⟨m.backend, registry, hashing'⟩ : Service).createInOrder container items order)
            s).1.toOption =
          (outcome ((⟨m.backend, registry, hashing⟩ : Service).create container items) s).1.toOption) ∧
      (∀ created s',
        outcome ((⟨m.backend, registry, hashing⟩ : Service).createInOrder container items order) s =
          (.ok created, s') → created = prepared.map fun p => schema.external hashing p.2) ∧
      ∀ done, done <+: order → s.Adds m.stamp container prepared
        (outcome ((⟨m.backend, registry, hashing⟩ : Service).createInOrder container items done) s).2 := by
  have hcomesOut (hashing : HashOrder) {order : List Nat} (horder : order.Perm (List.range items.length)) :
      (∃ created s', outcome ((⟨m.backend, registry, hashing⟩ : Service).createInOrder container items order)
        s = (.ok created, s')) ↔ s.HasRoom container prepared :=
    exists_outcome_createInOrder_iff hbatch hget hprepared horder
  have hyields {hashing : HashOrder} {order : List Nat} (horder : order.Perm (List.range items.length))
      {created : List Item} {s' : Store}
      (h : outcome ((⟨m.backend, registry, hashing⟩ : Service).createInOrder container items order) s =
        (.ok created, s')) : created = prepared.map fun p => schema.external hashing p.2 :=
    (outcome_createInOrder hbatch hget hprepared horder h).1
  rw [← createInOrder_range]
  refine ⟨isOk_outcome_iff.trans (hcomesOut hashing (List.Perm.refl _)),
    fun order horder => ⟨fun hashing' hdraws => ?_, ?_, ?_⟩⟩
  · by_cases hroom : s.HasRoom container prepared
    · obtain ⟨created, s₁, h⟩ := (hcomesOut hashing' horder).2 hroom
      obtain ⟨created', s₂, h'⟩ := (hcomesOut hashing (List.Perm.refl _)).2 hroom
      rw [h, h', hyields horder h, hyields (List.Perm.refl _) h', hdraws.external_eq]
    · rw [toOption_outcome_eq_none_iff.2 fun h => hroom ((hcomesOut hashing' horder).1 h),
        toOption_outcome_eq_none_iff.2 fun h => hroom ((hcomesOut hashing (List.Perm.refl _)).1 h)]
  · exact fun created s' h => hyields horder h
  · exact fun done _ => moves_createInOrder hbatch hget hprepared done s

end Prepared

def newItem : Item := .ofList [("id", .str "c"), ("pk", .str "p"), ("count", .int 1)]

/-- An item whose partition is a number, with a system field of its own. -/
def numberedItem : Item := .ofList [("id", .str "d"), ("pk", .int 7), ("_etag", .str "x")]

theorem exists_createInOrder_swapped : ∃ s',
    outcome (itemsService.createInOrder "items" [numberedItem, newItem] [1, 0]) doneAndDeleted =
      (.ok [numberedItem.erase "_etag", newItem], s') ∧
    s'.find? "items" ⟨"p", "a"⟩ = some doneItem := by
  have hbatch : Checks.batch .insert Limits.maxWrite [numberedItem, newItem] = .ok () := by decide +kernel
  have hprepared : [numberedItem, newItem].mapM items.prepare =
      .ok [("7", numberedItem), ("p", newItem)] := rfl
  have hcreate : (outcome (itemsService.create "items" [numberedItem, newItem]) doneAndDeleted).1.isOk =
      true := by decide +kernel
  obtain ⟨-, horders⟩ :=
    outcome_createInOrder_eq_create (m := {}) hbatch get?_items hprepared .byKey doneAndDeleted
  obtain ⟨hsame, hyields, hadds⟩ := horders [1, 0] (List.Perm.swap 0 1 [])
  replace hsame := hsame .byKey (.inl rfl)
  obtain ⟨_, _, hcreate⟩ := isOk_outcome_iff.1 hcreate
  have hcomesOut : ∃ created s', outcome (itemsService.createInOrder "items"
      [numberedItem, newItem] [1, 0]) doneAndDeleted = (.ok created, s') := by
    by_contra hnone
    have hnone := hsame.symm.trans (toOption_outcome_eq_none_iff.2 hnone)
    change (outcome (itemsService.create "items" _) _).1.toOption = none at hnone
    rw [hcreate] at hnone
    cases hnone
  obtain ⟨created, s', h⟩ := hcomesOut
  refine ⟨s', h.trans ?_, ?_⟩
  · rw [hyields created s' h]
    rfl
  · have hkeeps := (hadds [1, 0] (List.prefix_refl _)).keeps "items" ⟨"p", "a"⟩ doneItem
      find?_doneAndDeleted.1
    change (outcome (itemsService.createInOrder "items" _ _) _).2.find? _ _ = _ at hkeeps
    rw [h] at hkeeps
    exact hkeeps

end Service
end DocumentStore
