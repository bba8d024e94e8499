import DocumentStore.Proofs.Aliases
import DocumentStore.Proofs.Service.Creation
import DocumentStore.Service.Search

/-! Items that are created and read again.

What a caller creates is renamed, stamped and filed; what is read is stripped of the stamp and renamed
back. Where the alias table is one-to-one and the items keep to external names, nothing is lost on the
way (`Schema.external_storedItem`), and a reading by id behind a creation yields its items
(`Service.outcome_findByIds_created`). -/
namespace DocumentStore
open DocumentStore.Action

variable {m : Memory} {registry : Registry} {hashing hashing' : HashOrder} {container partition : String}
  {schema : Schema} {s s' : Store} {item : Item} {items : List Item} {ids : List String}

/-- The item has no system field and no attribute under a name that is only a stored one. -/
structure Aliases.External (a : Aliases) (item : Item) : Prop where
  noSystemField : ∀ name ∈ Reserved.systemFields, item.get? name = none
  noStoredName : ∀ name, Aliases.OnlyNew a.toStored name → item.get? name = none

theorem Aliases.external_iff {a : Aliases} : a.External item ↔
    (∀ name ∈ Reserved.systemFields, item.get? name = none) ∧
      ∀ e ∈ a.toStored.entries, a.toStored.get? e.2 = none → item.get? e.2 = none := by
  constructor
  · exact fun h => ⟨h.noSystemField, fun e he hnone =>
      h.noStoredName e.2 ⟨⟨e.1, OrderedMap.get?_eq_some_iff.2 he⟩, hnone⟩⟩
  · exact fun h => ⟨h.1, fun name ⟨⟨old, hold⟩, hnone⟩ =>
      h.2 (old, name) (OrderedMap.get?_eq_some_iff.1 hold) hnone⟩

instance {a : Aliases} : Decidable (a.External item) := decidable_of_iff _ Aliases.external_iff.symm

/-- What is stored of an item is shown to callers as they have written it. -/
theorem Schema.external_storedItem (honeToOne : schema.aliases.OneToOne)
    (hsystem : schema.aliases.AvoidsSystemFields) (hitem : schema.aliases.External item) :
    schema.external hashing (schema.aliases.storedItem item) = item := by
  have hstripped : (schema.aliases.storedItem item).withoutSystemFields =
      schema.aliases.storedItem item :=
    Item.withoutSystemFields_eq_self fun name hname =>
      honeToOne.get?_storedItem_systemField hsystem hname (hitem.noSystemField name hname)
  rw [external, hstripped, honeToOne.externalItem_storedItem hitem.noStoredName]

/-- The items are no more than one creation takes, stand in one partition under the ids, and nothing is
stored there yet. -/
structure Store.Takes (s : Store) (schema : Schema) (container partition : String) (items : List Item)
    (ids : List String) : Prop where
  nonempty : items ≠ []
  few : items.length ≤ Limits.maxWrite
  external : ∀ item ∈ items, schema.aliases.External item
  inPartition : ∀ item ∈ items, schema.partitionOf (schema.aliases.storedItem item) = .ok partition
  named : List.Forall₂ (fun item id => (schema.aliases.storedItem item).id? = some id) items ids
  distinct : ids.Nodup
  free : ∀ id ∈ ids, s.find? container ⟨partition, id⟩ = none

/-! ### Readings -/

theorem Checks.batch_eq_ok {α : Type} {op : Operation} {most : Nat} {input : List α}
    (hnonempty : input ≠ []) (hfew : input.length ≤ most) : batch op most input = .ok () := by
  rw [batch, someInput, if_neg (by simpa using hnonempty)]
  exact if_neg (Nat.not_lt.2 hfew)

theorem Store.readMany_eq {found : List Item}
    (hfound : List.Forall₂ (fun id item => s.find? container ⟨partition, id⟩ = some item) ids found) :
    s.readMany container (ids.map (·, partition)) = found := by
  rw [readMany, List.filterMap_map]
  induction hfound with
  | nil => rfl
  | cons hfirst _ ih =>
    rw [List.filterMap_cons, ih]
    simp only [Function.comp_apply, hfirst]

/-- A reading of items that are all there yields them in the order of their ids. -/
theorem Service.outcome_findByIds (hget : registry.schemas.get? container = some schema)
    {found : List Item} (hbatch : Checks.batch .query Limits.maxRead ids = .ok ()) (hdistinct : ids.Nodup)
    (hfound : List.Forall₂ (fun id item => s.find? container ⟨partition, id⟩ = some item) ids found) :
    outcome ((⟨m.backend, registry, hashing⟩ : Service).findByIds container ids partition) s =
      (.ok (found.map (schema.external hashing)), s) := by
  have hschema : (⟨m.backend, registry, hashing⟩ : Service).schema container .query = .ok schema :=
    Registry.resolve_eq_ok_iff.2 hget
  unfold findByIds
  refine outcome_liftM_bind_eq_ok_iff.2 ⟨(), hbatch, ?_⟩
  refine outcome_liftM_bind_eq_ok_iff.2 ⟨(), if_pos hdistinct, ?_⟩
  refine outcome_liftM_bind_eq_ok_iff.2 ⟨schema, hschema, ?_⟩
  refine outcome_bind_eq_ok_iff.2 ⟨found, s, ?_, rfl⟩
  show (Except.ok (s.readMany container (ids.map (·, partition))), s) = _
  rw [Store.readMany_eq hfound]

/-! ### Readings behind creations -/

/-- Where no expiry is derived, items are prepared by renaming alone. -/
theorem Store.Takes.mapM_prepare (htakes : s.Takes schema container partition items ids)
    (hexpiry : schema.expirySource = none) :
    items.mapM schema.prepare =
      .ok (items.map fun item => (partition, schema.aliases.storedItem item)) := by
  rw [Result.mapM_eq_ok_iff, List.forall₂_map_right_iff, List.forall₂_same]
  intro item hitem
  refine Schema.prepare_eq_ok_iff.2 ⟨item, ?_, rfl, htakes.inPartition item hitem⟩
  rw [hexpiry]
  rfl

theorem Store.Takes.map_fileKey? (htakes : s.Takes schema container partition items ids) :
    (items.map fun item => (partition, schema.aliases.storedItem item)).map fileKey? =
      ids.map fun id => some ⟨partition, id⟩ := by
  rw [List.map_map, ← List.forall₂_eq_eq_eq, List.forall₂_map_left_iff, List.forall₂_map_right_iff]
  refine htakes.named.imp fun item id hid => ?_
  show Option.map _ (schema.aliases.storedItem item).id? = _
  rw [hid]
  rfl

theorem Store.Takes.hasRoom (htakes : s.Takes schema container partition items ids) :
    s.HasRoom container (items.map fun item => (partition, schema.aliases.storedItem item)) where
  distinct := by
    rw [htakes.map_fileKey?]
    exact htakes.distinct.map fun id id' hsame => congrArg ItemKey.id (Option.some.inj hsame)
  free p hp := by
    have hkey := List.mem_map_of_mem (f := fileKey?) hp
    rw [htakes.map_fileKey?] at hkey
    obtain ⟨id, hid, hkey⟩ := List.mem_map.1 hkey
    exact ⟨_, hkey.symm, htakes.free id hid⟩

namespace Service
section Created
variable (hget : registry.schemas.get? container = some schema) (hexpiry : schema.expirySource = none)
  (honeToOne : schema.aliases.OneToOne) (hsystem : schema.aliases.AvoidsSystemFields)
  (htakes : s.Takes schema container partition items ids)

include hget hexpiry honeToOne hsystem htakes

/-- In whatever order the items are filed, they come out as they were put in, and are read so. -/
theorem outcome_findByIds_createdInOrder {order : List Nat}
    (horder : order.Perm (List.range items.length)) :
    ∃ s', outcome ((⟨m.backend, registry, hashing⟩ : Service).createInOrder container items order) s =
        (.ok items, s') ∧
      outcome ((⟨m.backend, registry, hashing'⟩ : Service).findByIds container ids partition) s' =
        (.ok items, s') := by
  have hbatch : Checks.batch .insert Limits.maxWrite items = .ok () :=
    Checks.batch_eq_ok htakes.nonempty htakes.few
  have hprepared := htakes.mapM_prepare hexpiry
  have hexternal (hashing : HashOrder) : (items.map fun item => (partition, schema.aliases.storedItem item)).map
      (fun p => schema.external hashing p.2) = items := by
    rw [List.map_map]
    refine (List.map_congr_left fun item hitem => ?_).trans (List.map_id items)
    exact Schema.external_storedItem honeToOne hsystem (htakes.external item hitem)
  obtain ⟨created, s', hcreate⟩ :=
    (exists_outcome_createInOrder_iff (m := m) hbatch hget hprepared horder).2 htakes.hasRoom
  obtain ⟨hcreated, filed, hfiled⟩ := outcome_createInOrder hbatch hget hprepared horder hcreate
  rw [hcreated, hexternal] at hcreate
  refine ⟨s', hcreate, ?_⟩
  have hread : List.Forall₂ (fun id item => s'.find? container ⟨partition, id⟩ = some item) ids filed := by
    have hkeys : List.Forall₂ (fun (key? : Option ItemKey) item =>
        ∃ key, key? = some key ∧ s'.find? container key = some item)
        ((items.map fun item => (partition, schema.aliases.storedItem item)).map fileKey?) filed := by
      rw [List.forall₂_map_left_iff]
      exact hfiled.imp fun p item ⟨key, _, hkey, hfind, _⟩ => ⟨key, hkey, hfind⟩
    rw [htakes.map_fileKey?, List.forall₂_map_left_iff] at hkeys
    refine hkeys.imp fun id item hfound => ?_
    obtain ⟨key, hkey, hfind⟩ := hfound
    cases hkey
    exact hfind
  have hbatch : Checks.batch .query Limits.maxRead ids = .ok () := by
    have hlength := htakes.named.length_eq
    refine Checks.batch_eq_ok ?_ ?_
    · exact fun hnone => htakes.nonempty (List.length_eq_zero_iff.1 (hlength.trans (by rw [hnone]; rfl)))
    · exact hlength ▸ Nat.le_trans htakes.few (by decide)
  refine (outcome_findByIds hget hbatch htakes.distinct hread).trans ?_
  rw [map_external_of_filedAs hfiled, hexternal]

/-- **What is created is read again as it was put in, in the same order, in whatever order the items
were filed, and whatever way back to external names each of the calls draws.** -/
theorem outcome_findByIds_created :
    (∃ s', outcome ((⟨m.backend, registry, hashing⟩ : Service).create container items) s = (.ok items, s') ∧
      outcome ((⟨m.backend, registry, hashing'⟩ : Service).findByIds container ids partition) s' =
        (.ok items, s')) ∧
    ∀ order, order.Perm (List.range items.length) →
      ∃ s', outcome ((⟨m.backend, registry, hashing⟩ : Service).createInOrder container items order) s =
          (.ok items, s') ∧
        outcome ((⟨m.backend, registry, hashing'⟩ : Service).findByIds container ids partition) s' =
          (.ok items, s') := by
  refine ⟨?_, fun order horder =>
    outcome_findByIds_createdInOrder hget hexpiry honeToOne hsystem htakes horder⟩
  rw [← createInOrder_range]
  exact outcome_findByIds_createdInOrder hget hexpiry honeToOne hsystem htakes (List.Perm.refl _)

end Created

/-- A container in which `timerId` is stored as the id, and what callers call `id` as a reference. -/
def timers : Schema :=
  ((Schema.mk "timers" "/userId" none [] false none).withAlias "timerId" "id").withAlias "id" "reference"

def timersService : Service := { backend := Memory.backend {}, registry := .ofList [timers] }

def firstTimer : Item := .ofList [("timerId", .str "t1"), ("id", .str "t2"), ("userId", .str "u")]

def secondTimer : Item := .ofList [("timerId", .str "t2"), ("userId", .str "u"), ("minutes", .int 5)]

theorem outcome_findByIds_created_timers : ∃ s',
    outcome (timersService.create "timers" [firstTimer, secondTimer]) default =
      (.ok [firstTimer, secondTimer], s') ∧
    outcome (timersService.findByIds "timers" ["t1", "t2"] "u") s' =
      (.ok [firstTimer, secondTimer], s') := by
  have htakes : Store.Takes default timers "timers" "u" [firstTimer, secondTimer] ["t1", "t2"] := {
    nonempty := by decide
    few := by decide
    external := by decide +kernel
    inPartition := List.forall_mem_cons.2 ⟨by rfl, List.forall_mem_cons.2 ⟨by rfl, nofun⟩⟩
    named := .cons (by rfl) (.cons (by rfl) .nil)
    distinct := by decide
    free := by decide +kernel }
  have hget : timersService.registry.schemas.get? "timers" = some timers := by decide +kernel
  exact (outcome_findByIds_created hget (by decide) (by decide +kernel) (by decide +kernel) htakes).1

end Service
end DocumentStore
