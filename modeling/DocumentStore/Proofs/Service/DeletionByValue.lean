import DocumentStore.Proofs.Query.KeyMatch
import DocumentStore.Proofs.Schema.Registry
import DocumentStore.Proofs.Service.Deletion

/-! What a deletion by value takes out of a store in memory.

A deletion that comes out leaves of each container that it is for exactly the items that the filter of
its query does not keep, and touches no other container (`find?_deleteByKeyValue`). -/
namespace DocumentStore.Service
open DocumentStore.Action
open Json (Value)

variable {m : Memory} {registry : Registry} {hashing : HashOrder} {container : String} {s s' : Store}

/-- The key that a row found by a match names. -/
def RowNames (container : String) (fallback : Option String) (row : Item) (key : ItemKey) : Prop :=
  matchedKey container fallback row = .ok (key.id, key.partition)

theorem RowNames.unique {fallback : Option String} {row : Item} {key key' : ItemKey}
    (h : RowNames container fallback row key) (h' : RowNames container fallback row key') :
    key = key' := by
  obtain ⟨hid, hpartition⟩ := Prod.mk.inj (Except.ok.inj (h.symm.trans h'))
  cases key
  cases key'
  exact congr (congrArg ItemKey.mk hpartition) hid

/-! ### One page -/

theorem without_of_deleteKeys {keys : List (String × String)}
    (h : outcome (keys.forM fun (id, partition) => discard (m.backend.delete container id partition)) s =
      (.ok (), s')) :
    s.Without container (keys.map fun key => ⟨key.2, key.1⟩) s' := by
  induction keys generalizing s with
  | nil =>
    cases h
    exact .refl ..
  | cons key rest ih =>
    obtain ⟨s₁, hkey, hrest⟩ := outcome_forM_cons_eq_ok_iff.1 h
    obtain ⟨item, hdelete⟩ := outcome_discard_eq_ok_iff.1 hkey
    have hone : s.delete container key.1 key.2 = .ok (item, s₁) :=
      outcome_ofChange_eq_ok_iff.1 hdelete
    exact (Store.Without.of_delete hone).trans (ih hrest)

/-- Chunk by chunk, the items that rows name are taken out. -/
theorem without_of_deletePage {fallback : Option String} {chunk : Nat} {rows : List Item}
    (h : outcome ((⟨m.backend, registry, hashing⟩ : Service).deletePage container fallback chunk rows) s =
      (.ok (), s')) :
    ∃ keys, List.Forall₂ (RowNames container fallback) rows keys ∧ s.Without container keys s' := by
  unfold deletePage at h
  rw [← flatten_chunks chunk rows]
  generalize chunks chunk rows = parts at h
  induction parts generalizing s with
  | nil =>
    cases h
    exact ⟨[], .nil, .refl ..⟩
  | cons part rest ih =>
    obtain ⟨s₁, hpart, hrest⟩ := outcome_forM_cons_eq_ok_iff.1 h
    obtain ⟨named, hnamed, hkeys⟩ := outcome_liftM_bind_eq_ok_iff.1 hpart
    obtain ⟨keys, hrestNamed, hrestWithout⟩ := ih hrest
    have hpartNamed : List.Forall₂ (RowNames container fallback) part
        (named.map fun key => ⟨key.2, key.1⟩) := by
      rw [List.forall₂_map_right_iff]
      exact Result.mapM_eq_ok_iff.1 hnamed
    exact ⟨_, List.rel_append hpartNamed hrestNamed, (without_of_deleteKeys hkeys).trans hrestWithout⟩

/-! ### All pages -/

theorem outcome_query_eq_ok {q : Query} {page : Page}
    (h : outcome (m.backend.query container q none) s = (.ok page, s')) :
    s' = s ∧ Store.page m.pageSize m.sorter container q none s = .ok page := by
  change outcome (.ofReading (Store.page m.pageSize m.sorter container q none)) s = _ at h
  rw [outcome_ofReading] at h
  obtain ⟨hpage, hstore⟩ := Prod.mk.inj h
  exact ⟨hstore.symm, hpage⟩

/-- A deletion in one container takes out what the filter of its query keeps, and nothing else. -/
theorem find?_deleteMatching {schema : Schema} {key : String} {value : Value} {batch : UInt64}
    (h : outcome ((⟨m.backend, registry, hashing⟩ : Service).deleteMatching schema key value batch) s =
      (.ok (), s')) :
    ∃ q, Query.keyMatch schema key value = .ok q ∧ ∀ other k item,
      s'.find? other k = some item ↔
        s.find? other k = some item ∧ ¬(other = schema.container ∧ kept q.filter item = true) := by
  obtain ⟨q, hmatch, h⟩ := outcome_liftM_bind_eq_ok_iff.1 h
  obtain ⟨_, _, hget, h⟩ := outcome_bind_eq_ok_iff.1 h
  cases hget
  obtain ⟨hq, -⟩ := Query.keyMatch_eq_ok hmatch
  have hask : ∀ {s s' page},
      outcome (m.backend.query schema.container { q with pageSize := some batch } none) s =
        (.ok page, s') → s' = s ∧ page.items =
          ((s.keptEntries schema.container q.filter).take (max 1 batch.toNat - 1 + 1)).map
            fun e => e.2.project q.projection := by
    intro s s' page hpage
    obtain ⟨hsame, hpage⟩ := outcome_query_eq_ok hpage
    have hbatch : Query.Exhaustive { q with pageSize := some batch } :=
      ⟨hq.partition, hq.sorting, hq.skip, hq.limit, hq.count⟩
    have hitems := Store.items_page hbatch hpage
    rw [Option.getD_some, Word.toNat_max] at hitems
    rw [Nat.sub_add_cancel (Nat.le_max_left 1 batch.toNat)]
    exact ⟨hsame, hitems⟩
  have hremove : ∀ {rows s s'},
      outcome ((⟨m.backend, registry, hashing⟩ : Service).deletePage schema.container (Item.keyText? value)
        batch.toNat rows) s = (.ok (), s') →
      ∃ keys, List.Forall₂ (RowNames schema.container (Item.keyText? value)) rows keys ∧
        s.Without schema.container keys s' := without_of_deletePage
  obtain ⟨found, keys, hdeletes, hend⟩ := deletes_of_deleteRounds hask hremove h
  have hnames : ∀ (item : Item) key key',
      RowNames schema.container (Item.keyText? value) (item.project q.projection) key →
        RowNames schema.container (Item.keyText? value) (item.project q.projection) key' →
          key = key' := fun _ _ _ => RowNames.unique
  refine ⟨q, hmatch, hdeletes.find?_of_settled hnames ?_⟩
  -- One round more than there are items is never reached.
  refine hend.resolve_right fun hmost => ?_
  exact absurd hdeletes.without.length_le_size (Nat.not_le_of_lt hmost)

/-- Deletions in several containers take out what each would. -/
theorem find?_forM_deleteMatching {schemas : List Schema} {key : String} {value : Value} {batch : UInt64}
    (h : outcome (schemas.forM fun schema =>
      (⟨m.backend, registry, hashing⟩ : Service).deleteMatching schema key value batch) s = (.ok (), s')) :
    (∀ schema ∈ schemas, ∃ q, Query.keyMatch schema key value = .ok q) ∧ ∀ container k item,
      s'.find? container k = some item ↔
        s.find? container k = some item ∧ ∀ schema ∈ schemas, schema.container = container →
          ∀ q, Query.keyMatch schema key value = .ok q → kept q.filter item = false := by
  induction schemas generalizing s with
  | nil =>
    cases h
    exact ⟨nofun, by simp⟩
  | cons schema rest ih =>
    obtain ⟨s₁, hfirst, hrest⟩ := outcome_forM_cons_eq_ok_iff.1 h
    obtain ⟨q, hmatch, hfind⟩ := find?_deleteMatching hfirst
    obtain ⟨hmatches, hfindRest⟩ := ih hrest
    refine ⟨List.forall_mem_cons.2 ⟨⟨q, hmatch⟩, hmatches⟩, fun container k item => ?_⟩
    rw [hfindRest, hfind, List.forall_mem_cons, and_assoc]
    refine and_congr_right fun _ => and_congr_left fun _ => ?_
    constructor
    · intro hkept hcontainer q' hmatch'
      obtain rfl := Except.ok.inj (hmatch.symm.trans hmatch')
      rw [← Bool.not_eq_true]
      exact fun hk => hkept ⟨hcontainer.symm, hk⟩
    · intro hkept h
      obtain ⟨hcontainer, hk⟩ := h
      rw [hkept hcontainer.symm q hmatch] at hk
      cases hk

/-- A deletion by value leaves other containers as they are, and takes out of each container that it
is for what the filter of the query for its schema keeps. -/
theorem find?_deleteByKeyValue {ss : List Schema} {containers : List String} {key : String}
    {value : Value} {batch : UInt64}
    (h : outcome ((⟨m.backend, .ofList ss, hashing⟩ : Service).deleteByKeyValue containers key value batch) s =
      (.ok (), s')) :
    (∀ container ∉ containers, ∀ k, s'.find? container k = s.find? container k) ∧
    ∀ container ∈ containers, ∃ schema q, (Registry.ofList ss).schemas.get? container = some schema ∧
      Query.keyMatch schema key value = .ok q ∧ ∀ k item,
        (s'.find? container k = some item ↔
          s.find? container k = some item ∧ kept q.filter item = false) := by
  obtain ⟨_, -, h⟩ := outcome_liftM_bind_eq_ok_iff.1 h
  obtain ⟨schemas, hschemas, h⟩ := outcome_liftM_bind_eq_ok_iff.1 h
  obtain ⟨hmatches, hfind⟩ := find?_forM_deleteMatching h
  have hresolved : List.Forall₂
      (fun container schema => (Registry.ofList ss).schemas.get? container = some schema)
      containers schemas :=
    (Result.mapM_eq_ok_iff.1 hschemas).imp fun _ _ => Registry.resolve_eq_ok_iff.1
  have hregistered : ∀ schema ∈ schemas, schema.container ∈ containers ∧
      (Registry.ofList ss).schemas.get? schema.container = some schema :=
    Registry.registered_of_resolve hschemas
  constructor
  · intro container hcontainer k
    refine Option.ext fun item => ?_
    rw [hfind]
    refine and_iff_left fun schema hschema hsame => absurd ?_ hcontainer
    exact hsame ▸ (hregistered schema hschema).1
  · intro container hcontainer
    obtain ⟨schema, hschema, hget⟩ := exists_of_mem_forall₂ hresolved hcontainer
    have hsame := Registry.container_of_get?_ofList hget
    obtain ⟨q, hmatch⟩ := hmatches schema hschema
    refine ⟨schema, q, hget, hmatch, fun k item => ?_⟩
    rw [hfind]
    refine and_congr_right fun _ => ⟨fun hall => hall schema hschema hsame q hmatch, ?_⟩
    -- All that is asked of this container is asked by the one schema registered for it.
    intro hkept schema' hschema' hsame' q' hmatch'
    have hget' := (hregistered schema' hschema').2
    rw [hsame', hget] at hget'
    obtain rfl := Option.some.inj hget'
    obtain rfl := Except.ok.inj (hmatch.symm.trans hmatch')
    exact hkept

/-- **A deletion by a boolean or by a string that is no date leaves other containers as they are. Of
each container that it is for it takes out the items that have the value under the stored name of the
key, and leaves all others; but where that name is `isDeleted`, it takes out all items that are not
soft-deleted, whatever the value.** -/
theorem find?_deleteByKeyValue_plain {ss : List Schema} {containers : List String} {key : String}
    {value : Value} {batch : UInt64} (hvalue : value.IsPlain)
    (h : outcome ((⟨m.backend, .ofList ss, hashing⟩ : Service).deleteByKeyValue containers key value batch) s =
      (.ok (), s')) :
    (∀ container ∉ containers, ∀ k, s'.find? container k = s.find? container k) ∧
    ∀ container ∈ containers, ∃ schema, (Registry.ofList ss).schemas.get? container = some schema ∧
      (schema.aliases.storedName key ≠ Reserved.isDeleted → ∀ k item,
        (s'.find? container k = some item ↔ s.find? container k = some item ∧
          item.lookup? (schema.aliases.storedName key) ≠ some value)) ∧
      (schema.aliases.storedName key = Reserved.isDeleted → ∀ k item,
        (s'.find? container k = some item ↔ s.find? container k = some item ∧
          item.isDeleted = true)) := by
  obtain ⟨hothers, hcontainers⟩ := find?_deleteByKeyValue h
  refine ⟨hothers, fun container hcontainer => ?_⟩
  obtain ⟨schema, q, hget, hmatch, hfind⟩ := hcontainers container hcontainer
  obtain ⟨-, operand, hoperand, hfilter⟩ := Query.keyMatch_eq_ok hmatch
  rw [hfilter] at hfind
  refine ⟨schema, hget, fun hname k item => ?_, fun hname k item => ?_⟩
  · rw [hfind, ← Bool.not_eq_true, kept_keyLeaf_iff hvalue hoperand hname]
  · rw [hfind, ← Bool.not_eq_true, kept_keyLeaf_marker_iff operand hname, Bool.not_eq_false]

/-- Items in the partitions of `/pk`. -/
def items : Schema := { container := "items", partitionKeyPath := "/pk" }

def itemsService : Service := { backend := ({} : Memory).backend, registry := .ofList [items] }

def doneItem : Item := .ofList [("id", .str "a"), ("pk", .str "p"), ("done", .bool true)]

def deletedItem : Item := .ofList [("id", .str "b"), ("pk", .str "p"), ("isDeleted", .bool true)]

def doneAndDeleted : Store :=
  (Store.put {} "items" ⟨"p", "a"⟩ doneItem).put "items" ⟨"p", "b"⟩ deletedItem

theorem get?_items : (Registry.ofList [items]).schemas.get? "items" = some items := rfl

theorem find?_doneAndDeleted : doneAndDeleted.find? "items" ⟨"p", "a"⟩ = some doneItem ∧
    doneAndDeleted.find? "items" ⟨"p", "b"⟩ = some deletedItem := by
  simp [doneAndDeleted]

theorem exists_deleteByKeyValue_done : ∃ s',
    outcome (itemsService.deleteByKeyValue ["items"] "done" (.bool true) 0) doneAndDeleted =
      (.ok (), s') ∧
    s'.find? "items" ⟨"p", "a"⟩ = none ∧ s'.find? "items" ⟨"p", "b"⟩ = some deletedItem := by
  obtain ⟨s', h⟩ : ∃ s', outcome (itemsService.deleteByKeyValue ["items"] "done" (.bool true) 0)
      doneAndDeleted = (.ok (), s') := exists_outcome_eq_ok (by decide +kernel)
  have hvalue : (Value.bool true).IsPlain := trivial
  obtain ⟨-, hcontainers⟩ := find?_deleteByKeyValue_plain hvalue h
  obtain ⟨schema, hget, hplain, -⟩ := hcontainers "items" (List.mem_singleton_self _)
  obtain rfl := Option.some.inj (get?_items.symm.trans hget)
  have hfind := hplain (by decide)
  refine ⟨s', h, ?_, (hfind _ _).2 ⟨find?_doneAndDeleted.2, ?_⟩⟩
  · refine Option.eq_none_iff_forall_ne_some.2 fun item hitem => ?_
    obtain ⟨hbefore, hvalue⟩ := (hfind _ _).1 hitem
    obtain rfl := Option.some.inj (find?_doneAndDeleted.1.symm.trans hbefore)
    exact hvalue (by decide +kernel)
  · have hnone : deletedItem.lookup? (items.aliases.storedName "done") = none := by decide +kernel
    rw [hnone]
    exact (Option.some_ne_none _).symm

/-- Asked for the items whose `isDeleted` is true, a deletion by value leaves the one that there is,
and takes out one that has no such attribute. -/
theorem exists_deleteByKeyValue_isDeleted : ∃ s',
    outcome (itemsService.deleteByKeyValue ["items"] "isDeleted" (.bool true) 0) doneAndDeleted =
      (.ok (), s') ∧
    items.aliases.storedName "isDeleted" = "isDeleted" ∧
    doneItem.lookup? "isDeleted" = none ∧ doneAndDeleted.find? "items" ⟨"p", "a"⟩ = some doneItem ∧
    s'.find? "items" ⟨"p", "a"⟩ = none ∧
    deletedItem.lookup? "isDeleted" = some (.bool true) ∧
    s'.find? "items" ⟨"p", "b"⟩ = some deletedItem := by
  obtain ⟨s', h⟩ : ∃ s', outcome (itemsService.deleteByKeyValue ["items"] "isDeleted" (.bool true) 0)
      doneAndDeleted = (.ok (), s') := exists_outcome_eq_ok (by decide +kernel)
  obtain ⟨-, hcontainers⟩ := find?_deleteByKeyValue h
  obtain ⟨schema, q, hget, hmatch, hfind⟩ := hcontainers "items" (List.mem_singleton_self _)
  obtain rfl := Option.some.inj (get?_items.symm.trans hget)
  obtain ⟨-, operand, -, hfilter⟩ := Query.keyMatch_eq_ok hmatch
  have hkept (item : Item) : kept q.filter item = false ↔ item.isDeleted = true := by
    rw [hfilter, ← Bool.not_eq_true, kept_keyLeaf_marker_iff operand rfl, Bool.not_eq_false]
  refine ⟨s', h, rfl, by decide +kernel, find?_doneAndDeleted.1, ?_, by decide +kernel, ?_⟩
  · refine Option.eq_none_iff_forall_ne_some.2 fun item hitem => ?_
    obtain ⟨hbefore, hdeleted⟩ := (hfind _ _).1 hitem
    obtain rfl := Option.some.inj (find?_doneAndDeleted.1.symm.trans hbefore)
    exact absurd ((hkept _).1 hdeleted) (by decide +kernel)
  · exact (hfind _ _).2 ⟨find?_doneAndDeleted.2, (hkept _).2 (by decide +kernel)⟩

end DocumentStore.Service
