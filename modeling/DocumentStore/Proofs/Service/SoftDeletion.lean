import DocumentStore.Proofs.Filter.Guard
import DocumentStore.Proofs.Service.Creation
import DocumentStore.Proofs.Service.Isolation
import DocumentStore.Proofs.Service.Marking
import DocumentStore.Proofs.Store.Purge

/-! Soft deletion, and its reversal.

Criteria with a marker anywhere admit no item that is marked as deleted, so searches and counts by them
read the same from stores that agree on the other items of a partition (`Store.AgreesOnLive`). A soft
deletion hides the items that it marks, and what is restored afterwards is what was there
(`Service.softDelete_undelete`). -/
namespace DocumentStore
open DocumentStore.Action

variable {m : Memory} {registry : Registry} {hashing : HashOrder} {container partition : String}
  {schema : Schema} {c : Criteria} {s s' : Store} {q : Query} {ids : List String}

/-! ### Filters with a marker -/

/-- Criteria that hold a marker hold one when attributes are renamed, if the table stores `isDeleted`
under its own name. -/
theorem Criteria.references_storedName {a : Aliases}
    (ha : a.storedName Reserved.isDeleted = Reserved.isDeleted)
    (hc : c.references Reserved.isDeleted = true) :
    (c.mapNames a.storedName).references Reserved.isDeleted = true := by
  obtain ⟨l, hl, hname⟩ := (references_iff _ c).1 hc
  refine (references_iff _ _).2 ⟨l.renamed a.storedName, ?_, ?_⟩
  · rw [leaves_mapNames]
    exact List.mem_map_of_mem hl
  · rw [Leaf.renamed, hname, ha]

/-- The stores have the same items in a partition of a container, besides those marked as deleted. -/
def Store.AgreesOnLive (container partition : String) (s s' : Store) : Prop :=
  ∀ id item, item.isDeleted = false →
    (s.find? container ⟨partition, id⟩ = some item ↔ s'.find? container ⟨partition, id⟩ = some item)

/-- What a query of one partition finds by criteria with a marker depends on the items of that partition
that are not marked. -/
theorem Store.AgreesOnLive.matching_eq (h : s.AgreesOnLive container partition s')
    (hq : q.partitionValue = some partition) (hfilter : q.filter = some c)
    (hc : c.references Reserved.isDeleted = true) :
    (s.shelf container).matching q = (s'.shelf container).matching q := by
  let live : ItemKey → Item → Bool := fun key item => !item.isDeleted && partition == key.partition
  have hmatching (shelf : Shelf) : shelf.matching q = select (some c) (shelf.filter live).values := by
    rw [Shelf.matching_eq_select, hfilter, ← select_filter_isDeleted hc, List.filter_map,
      List.filter_filter, hq]
    rfl
  have hlive : (s.shelf container).filter live = (s'.shelf container).filter live := by
    refine OrderedMap.ext_get? fun key => Option.ext fun item => ?_
    rw [OrderedMap.get?_filter_eq_some_iff, OrderedMap.get?_filter_eq_some_iff]
    refine and_congr_left fun hpasses => ?_
    obtain ⟨hitem, hpartition⟩ := Bool.and_eq_true_iff.1 hpasses
    obtain ⟨_, id⟩ := key
    obtain rfl := beq_iff_eq.1 hpartition
    exact h id item (by simpa using hitem)
  rw [hmatching, hmatching, hlive]

namespace Service

/-! ### Reading -/

theorem hits_eq_of_agreesOnLive (h : s.AgreesOnLive container partition s')
    (hget : registry.schemas.get? container = some schema)
    (hmarker : schema.aliases.storedName Reserved.isDeleted = Reserved.isDeleted)
    (hc : c.references Reserved.isDeleted = true) :
    hits registry container partition c s = hits registry container partition c s' := by
  have hmatching : (s.shelf container).matching (.ofPartition schema partition c) =
      (s'.shelf container).matching (.ofPartition schema partition c) :=
    h.matching_eq rfl rfl (Criteria.references_storedName hmarker hc)
  unfold hits
  rw [Registry.resolve, hget]
  show (Query.conditions _ _ >>= fun _ => _) = (Query.conditions _ _ >>= fun _ => _)
  rw [hmatching]

theorem readsAlike_find_of_marker (hget : registry.schemas.get? container = some schema)
    (hmarker : schema.aliases.storedName Reserved.isDeleted = Reserved.isDeleted)
    (hc : c.references Reserved.isDeleted = true) (options : SearchOptions) :
    ReadsAlike (Store.AgreesOnLive container partition)
      ((⟨m.backend, registry, hashing⟩ : Service).find container partition (some c) options) := by
  refine readsAlike_liftM_bind fun _ _ => readsAlike_liftM_bind fun c' hsome =>
    readsAlike_liftM_bind fun _ hlimit => ?_
  obtain ⟨_, -, hsame⟩ := Result.bind_eq_ok_iff.1 hsome
  cases hsame
  intro s s' h
  refine ⟨_, outcome_found hlimit, ?_⟩
  rw [hits_eq_of_agreesOnLive h hget hmarker hc]
  exact outcome_found hlimit

theorem readsAlike_count_of_marker (hget : registry.schemas.get? container = some schema)
    (hmarker : schema.aliases.storedName Reserved.isDeleted = Reserved.isDeleted)
    (hc : c.references Reserved.isDeleted = true) :
    ReadsAlike (Store.AgreesOnLive container partition)
      ((⟨m.backend, registry, hashing⟩ : Service).count container partition (some c)) := by
  refine readsAlike_liftM_bind fun _ _ => readsAlike_liftM_bind fun _ _ =>
    readsAlike_liftM_bind fun schema' hschema => readsAlike_liftM_bind fun q hq => ?_
  obtain rfl := Option.some.inj (hget.symm.trans (Registry.resolve_eq_ok_iff.1 hschema))
  obtain ⟨hcount, hscope⟩ := Query.of_counting hq
  have hfilter : q.filter = some (c.mapNames schema.aliases.storedName) := by
    obtain ⟨base, hbase, hq⟩ := Result.bind_eq_ok_iff.1 hq
    obtain ⟨_, -, rfl⟩ := Query.inPartition_eq_ok_iff.1 hbase
    cases hq
    rfl
  intro s s' h
  refine ⟨_, outcome_rows_counting hcount, ?_⟩
  rw [h.matching_eq hscope hfilter (Criteria.references_storedName hmarker hc)]
  exact outcome_rows_counting hcount

/-- What a search yields are items of the partition, each as the search shows it. -/
theorem exists_shownItem_of_find {options : SearchOptions} {rows : List Item}
    (hget : registry.schemas.get? container = some schema)
    (h : (outcome ((⟨m.backend, registry, hashing⟩ : Service).find container partition (some c) options) s).1 =
      .ok rows) {row : Item} (hrow : row ∈ rows) :
    ∃ id item, s.find? container ⟨partition, id⟩ = some item ∧
      row = schema.shownItem hashing options.fields item := by
  obtain ⟨-, -, schema', found, listed, hhits, hlisted, rfl⟩ := of_outcome_find_eq_ok h
  obtain ⟨hschema, hfound⟩ := of_hits_eq_ok hhits
  obtain rfl := Option.some.inj (hget.symm.trans (Registry.resolve_eq_ok_iff.1 hschema))
  obtain ⟨item, hwindow, rfl⟩ := List.mem_map.1 hrow
  have hitem := List.mem_of_mem_drop (List.mem_of_mem_take hwindow)
  rw [(Sorter.perm_of_sortBy hlisted).mem_iff, Shelf.matching_eq_filter hfound] at hitem
  obtain ⟨⟨key, _⟩, hentry, rfl⟩ := List.mem_map.1 hitem
  obtain ⟨hmem, hfinds⟩ := List.mem_filter.1 hentry
  obtain ⟨_, id⟩ := key
  obtain rfl : partition = _ := by simpa [Query.finds, Query.ofPartition] using
    (Bool.and_eq_true_iff.1 hfinds).1
  exact ⟨id, _, OrderedMap.get?_eq_some_iff.2 hmem, rfl⟩

/-! ### Hiding -/

/-- A search of the partition by the criteria yields none of its items under the ids, and a search and a
count come to what they come to where none of these items is there. -/
structure Hides (service : Service) (schema : Schema) (container partition : String)
    (ids : List String) (s : Store) (c : Criteria) : Prop where
  rows : ∀ options rows,
    (outcome (service.find container partition (some c) options) s).1 = .ok rows →
    ∀ row ∈ rows, ∃ id item, id ∉ ids ∧ s.find? container ⟨partition, id⟩ = some item ∧
      row = schema.shownItem service.hashing options.fields item
  find : ∀ options, (outcome (service.find container partition (some c) options) s).1 =
    (outcome (service.find container partition (some c) options)
      (s.removeAll container (ids.map (⟨partition, ·⟩)))).1
  count : (outcome (service.count container partition (some c)) s).1 =
    (outcome (service.count container partition (some c))
      (s.removeAll container (ids.map (⟨partition, ·⟩)))).1

/-- Items marked as deleted are hidden from searches and counts by criteria with a marker. -/
theorem hides_of_isDeleted (hget : registry.schemas.get? container = some schema)
    (hmarker : schema.aliases.storedName Reserved.isDeleted = Reserved.isDeleted)
    (hdeleted : ∀ id ∈ ids, ∀ item, s.find? container ⟨partition, id⟩ = some item →
      item.isDeleted = true)
    (hc : c.references Reserved.isDeleted = true) :
    (⟨m.backend, registry, hashing⟩ : Service).Hides schema container partition ids s c := by
  have hleft (id : String) : (s.removeAll container (ids.map (⟨partition, ·⟩))).find? container
      ⟨partition, id⟩ = if id ∈ ids then none else s.find? container ⟨partition, id⟩ := by
    rw [Store.find?_removeAll]
    simp
  have hagrees : s.AgreesOnLive container partition
      (s.removeAll container (ids.map (⟨partition, ·⟩))) := by
    intro id item hitem
    rw [hleft]
    by_cases hid : id ∈ ids
    · rw [if_pos hid]
      refine iff_of_false (fun hfound => ?_) nofun
      rw [hdeleted id hid item hfound] at hitem
      cases hitem
    · rw [if_neg hid]
  refine ⟨fun options rows hrows row hrow => ?_, fun options => ?_, ?_⟩
  · rw [(readsAlike_find_of_marker hget hmarker hc options).answer_eq hagrees] at hrows
    obtain ⟨id, item, hfound, hshown⟩ := exists_shownItem_of_find hget hrows hrow
    rw [hleft] at hfound
    split at hfound
    · cases hfound
    · next hid => exact ⟨id, item, hid, hfound, hshown⟩
  · exact (readsAlike_find_of_marker hget hmarker hc options).answer_eq hagrees
  · exact (readsAlike_count_of_marker hget hmarker hc).answer_eq hagrees

/-- **Items that are there are soft-deleted and restored.** The deletion marks them, however often each
is listed, and changes no other item. No search or count by criteria with a marker anywhere comes by
them. What restores them yields them one by one as they are in the end: as they were before the
deletion, but for the mark, the purge where a delay is given, and a new stamp. -/
theorem softDelete_undelete (m : Memory) (hget : registry.schemas.get? container = some schema)
    (hmarker : schema.aliases.storedName Reserved.isDeleted = Reserved.isDeleted) (hs : s.Reachable)
    (hids : ids ≠ []) (hthere : ∀ id ∈ ids, (s.find? container ⟨partition, id⟩).isSome = true)
    (delay : Option PurgeDelay) (hashing restoring : HashOrder) :
    ∃ s₁, outcome ((⟨m.backend, registry, hashing⟩ : Service).softDelete container ids partition delay) s =
        (.ok (), s₁) ∧
      s.Marks m container partition ids true delay s.writes s₁ ∧
      (∀ c : Criteria, c.references Reserved.isDeleted = true → ∀ searching,
        (⟨m.backend, registry, searching⟩ : Service).Hides schema container partition ids s₁ c) ∧
      ∃ restored s₂,
        outcome ((⟨m.backend, registry, restoring⟩ : Service).undelete container ids partition delay) s₁ =
          (.ok restored, s₂) ∧
        List.Forall₂ (fun id item => ∃ stored, s₂.find? container ⟨partition, id⟩ = some stored ∧
          item = schema.external restoring stored) ids restored ∧
        s.Marks m container partition ids false delay s₁.writes s₂ := by
  obtain ⟨_, s₁, hmark, hmarks, -⟩ := exists_outcome_mark m true delay hget hs.sound hids hthere
  have hsoft : outcome ((⟨m.backend, registry, hashing⟩ : Service).softDelete container ids partition delay) s =
      (.ok (), s₁) := outcome_discard_eq_ok_iff.2 ⟨_, hmark⟩
  have hsound : Table.Sound s₁.find? := by
    have hreached : (outcome (Request.run ⟨m.backend, registry, hashing⟩
        (.softDelete container ids partition delay)) s).2.Reachable := hs.request m registry _
    rw [Request.run, hsoft] at hreached
    exact hreached.sound
  obtain ⟨restored, s₂, hrestore, hmarks', hshown⟩ :=
    exists_outcome_mark m false delay hget hsound hids fun id hid => hmarks.isSome_find? hid
  refine ⟨s₁, hsoft, hmarks, fun c hc searching => ?_, restored, s₂, hrestore, hshown, hmarks.again hmarks'⟩
  refine hides_of_isDeleted hget hmarker (fun id hid item hitem => ?_) hc
  obtain ⟨_, new, -, hnew, hmarked, -⟩ := hmarks.listed id hid
  obtain rfl := Option.some.inj (hitem.symm.trans hnew)
  exact hmarked.isDeleted_eq

/-- What a service holds once it has created an item in each of two partitions. -/
def createdStore : Store :=
  (outcome (Request.run itemsService (.create "items" [newItem, numberedItem])) {}).2

theorem exists_softDelete_listedTwice :
    ∃ s₁, outcome (itemsService.softDelete "items" ["c", "c"] "p" (some ⟨30⟩)) createdStore =
        (.ok (), s₁) ∧
      itemsService.Hides items "items" "p" ["c", "c"] s₁ .notDeleted ∧
      ∃ restored s₂, outcome (itemsService.undelete "items" ["c", "c"] "p" (some ⟨30⟩)) s₁ =
          (.ok restored, s₂) ∧
        restored.length = 2 ∧ s₂.find? "items" ⟨"7", "d"⟩ = createdStore.find? "items" ⟨"7", "d"⟩ := by
  have hreached : createdStore.Reachable := .request {} itemsService.registry _ .empty
  have hthere : ∀ id ∈ ["c", "c"], (createdStore.find? "items" ⟨"p", id⟩).isSome = true := by
    decide +kernel
  obtain ⟨s₁, hsoft, -, hhides, restored, s₂, hrestore, hshown, hmarks⟩ :=
    softDelete_undelete {} get?_items rfl hreached (by decide) hthere (some ⟨30⟩) .byKey .byKey
  refine ⟨s₁, hsoft, hhides .notDeleted (by decide) .byKey, restored, s₂, hrestore, ?_, ?_⟩
  · exact hshown.length_eq.symm
  · exact hmarks.others "items" ⟨"7", "d"⟩ (by decide)

end Service
end DocumentStore
