import DocumentStore.Proofs.Service.DeletionByValue
import DocumentStore.Proofs.Service.Requests
import DocumentStore.Proofs.Store.KeyRows
import DocumentStore.Proofs.Store.Purge

/-! How deletions by value end.

Rounds of asking and removing could go on for ever (`RoundsEnd` is the relation of those that do not).
In memory a round that is followed by another has taken out an item, so they end, on every store
(`roundsEnd_deleteMatching`). Where each row names the item that it is of, no round fails either, and
the rounds take out the entries that the filter keeps from the front, as many at a time as a page holds.
All of them together are the same however they are cut, so neither the batch nor the pages of the
backend tell in what is left (`exists_deleteByKeyValue_eq`). -/
namespace DocumentStore

/-- The chunks of the images are the images of the chunks. -/
theorem chunks_map (f : α → β) (n : Nat) (xs : List α) :
    chunks n (xs.map f) = (chunks n xs).map (List.map f) := by
  fun_induction chunks n xs with
  | case1 xs hlast hempty =>
    obtain rfl := List.isEmpty_iff.1 hempty
    rw [List.map_nil, chunks, if_pos (.inr (Nat.zero_le n))]
    rfl
  | case2 xs hlast hrest =>
    rw [chunks, List.length_map, if_pos hlast, List.isEmpty_map, if_neg hrest]
    rfl
  | case3 xs hmore ih =>
    rw [chunks, List.length_map, if_neg hmore, ← List.map_take, ← List.map_drop, ih, List.map_cons]

namespace Service
open DocumentStore.Action
open Json (Value)

variable {m : Memory} {registry : Registry} {hashing : HashOrder} {container : String}
  {filter : Option Criteria} {s s₀ s' : Store}

/-! ### Rounds without a bound -/

/-- Rounds end with an outcome: when asking fails, when nothing is found, or when removing fails. After
any other round comes another. -/
inductive RoundsEnd (ask : Action Page) (remove : List Item → Action Unit) :
    Store → Result Unit × Store → Prop
  | unasked {s s' : Store} {e : Error} (hask : outcome ask s = (.error e, s')) :
    RoundsEnd ask remove s (.error e, s')
  | settled {s s' : Store} {page : Page} (hask : outcome ask s = (.ok page, s'))
    (hpage : page.items = []) : RoundsEnd ask remove s (.ok (), s')
  | unremoved {s s₁ s' : Store} {page : Page} {e : Error} (hask : outcome ask s = (.ok page, s₁))
    (hpage : page.items ≠ []) (hremove : outcome (remove page.items) s₁ = (.error e, s')) :
    RoundsEnd ask remove s (.error e, s')
  | again {s s₁ s₂ : Store} {page : Page} {out : Result Unit × Store}
    (hask : outcome ask s = (.ok page, s₁)) (hpage : page.items ≠ [])
    (hremove : outcome (remove page.items) s₁ = (.ok (), s₂)) (hrest : RoundsEnd ask remove s₂ out) :
    RoundsEnd ask remove s out

/-- Rounds that each take an item out end, and a bound that allows for one more than there were items
to begin with cuts none of them off. -/
theorem roundsEnd_deleteRounds {Names : Item → ItemKey → Prop} {ask : Action Page}
    {remove : List Item → Action Unit} (hask : ∀ s, (outcome ask s).2 = s)
    (hremove : ∀ {rows s s'}, outcome (remove rows) s = (.ok (), s') →
      ∃ keys, List.Forall₂ Names rows keys ∧ s.Without container keys s')
    {keys : List ItemKey} {most : Nat} (hs : s₀.Without container keys s)
    (hmost : s₀.size < keys.length + most) :
    RoundsEnd ask remove s (outcome (deleteRounds ask remove most) s) := by
  induction most generalizing s keys with
  | zero => exact absurd hs.length_le_size (Nat.not_le_of_lt hmost)
  | succ most ih =>
    cases hpage : outcome ask s with
    | mk r s₁ =>
      obtain rfl : s₁ = s := by simpa [hpage] using hask s
      cases r with
      | error e =>
        rw [deleteRounds, outcome_bind, hpage]
        exact .unasked hpage
      | ok page =>
        rw [outcome_deleteRounds_succ hpage]
        by_cases hempty : page.items = []
        · rw [if_pos (List.isEmpty_iff.2 hempty)]
          exact .settled hpage hempty
        · rw [if_neg (by simpa using hempty), outcome_bind]
          cases hremoved : outcome (remove page.items) s₁ with
          | mk r s₂ =>
            cases r with
            | error e => exact .unremoved hpage hempty hremoved
            | ok =>
              obtain ⟨keys', hnamed, hwithout⟩ := hremove hremoved
              refine .again hpage hempty hremoved (ih (hs.trans hwithout) ?_)
              have hlength := hnamed.length_eq
              have hrows := List.length_pos_iff.2 hempty
              rw [List.length_append]
              omega

/-- A deletion in one container is its rounds without a bound, whatever the store holds. -/
theorem roundsEnd_deleteMatching {schema : Schema} {key : String} {value : Value} {q : Query}
    (hmatch : Query.keyMatch schema key value = .ok q) (batch : UInt64) (s : Store) :
    RoundsEnd (m.backend.query schema.container { q with pageSize := some batch } none)
      ((⟨m.backend, registry, hashing⟩ : Service).deletePage schema.container (Item.keyText? value)
        batch.toNat) s
      (outcome ((⟨m.backend, registry, hashing⟩ : Service).deleteMatching schema key value batch) s) := by
  unfold deleteMatching
  rw [hmatch]
  exact roundsEnd_deleteRounds (fun _ => rfl) without_of_deletePage (.refl schema.container s)
    (by simp)

/-! ### Rows that name their items -/

theorem outcome_deleteKeys {es rest : List (ItemKey × Item)}
    (h : s.keptEntries container filter = es ++ rest) :
    outcome ((es.map fun e => (e.1.id, e.1.partition)).forM fun (id, partition) =>
      discard (m.backend.delete container id partition)) s =
        (.ok (), s.removeAll container (es.map Prod.fst)) := by
  induction es generalizing s with
  | nil => rfl
  | cons e es ih =>
    have hmem : e ∈ s.keptEntries container filter := by
      rw [h]
      exact List.mem_cons_self
    obtain ⟨hfound, -⟩ := Store.find?_of_mem_keptEntries hmem
    refine outcome_forM_cons_eq_ok_iff.2
      ⟨s.remove container e.1, outcome_discard_eq_ok_iff.2 ⟨e.2, ?_⟩, ?_⟩
    · show outcome (.ofChange (Store.delete container e.1.id e.1.partition)) s = _
      rw [outcome_ofChange, Store.delete, hfound]
    · exact ih (Store.keptEntries_remove_first h)

/-- The rows of the first entries that a filter keeps are deleted, however they are cut into chunks. -/
theorem outcome_deletePage {fallback : Option String} {fields : List String}
    {es rest : List (ItemKey × Item)} (h : s.keptEntries container filter = es ++ rest)
    (hnames : ∀ e ∈ es, RowNames container fallback (e.2.project fields) e.1) (chunk : Nat) :
    outcome ((⟨m.backend, registry, hashing⟩ : Service).deletePage container fallback chunk
      (es.map fun e => e.2.project fields)) s =
        (.ok (), s.removeAll container (es.map Prod.fst)) := by
  unfold deletePage
  rw [chunks_map]
  have hparts := flatten_chunks chunk es
  generalize chunks chunk es = parts at hparts
  subst hparts
  induction parts generalizing s with
  | nil => rfl
  | cons part parts ih =>
    rw [List.flatten_cons, List.append_assoc] at h
    rw [List.flatten_cons, List.forall_mem_append] at hnames
    have hkeys : (part.map fun e => e.2.project fields).mapM (matchedKey container fallback) =
        .ok (part.map fun e => (e.1.id, e.1.partition)) := by
      rw [Result.mapM_eq_ok_iff, List.forall₂_map_left_iff, List.forall₂_map_right_iff,
        List.forall₂_same]
      exact hnames.1
    rw [List.flatten_cons, List.map_append, Store.removeAll_append]
    refine outcome_forM_cons_eq_ok_iff.2 ⟨s.removeAll container (part.map Prod.fst),
      outcome_liftM_bind_eq_ok_iff.2 ⟨_, hkeys, ?_⟩, ?_⟩
    · exact outcome_deleteKeys h
    · exact ih (Store.keptEntries_removeAll h) hnames.2

/-- Rounds take out all that the filter keeps, however much of it a page holds. -/
theorem outcome_deleteRounds {Names : Item → ItemKey → Prop} {fields : List String} {size : Nat}
    {ask : Action Page} {remove : List Item → Action Unit}
    (hask : ∀ s, ∃ page, outcome ask s = (.ok page, s) ∧ page.items =
      ((s.keptEntries container filter).take (size + 1)).map fun e => e.2.project fields)
    (hremove : ∀ {s es rest}, s.keptEntries container filter = es ++ rest →
      (∀ e ∈ es, Names (e.2.project fields) e.1) →
      outcome (remove (es.map fun e => e.2.project fields)) s =
        (.ok (), s.removeAll container (es.map Prod.fst)))
    (hnames : ∀ e ∈ s.keptEntries container filter, Names (e.2.project fields) e.1) {most : Nat}
    (hmost : (s.keptEntries container filter).length < most) :
    outcome (deleteRounds ask remove most) s = (.ok (), s.purged container filter) := by
  induction most generalizing s with
  | zero => exact absurd hmost (Nat.not_lt_zero _)
  | succ most ih =>
    obtain ⟨page, hpage, hitems⟩ := hask s
    rw [outcome_deleteRounds_succ hpage, hitems]
    cases hkept : s.keptEntries container filter with
    | nil =>
      rw [Store.purged_of_keptEntries_eq_nil hkept]
      rfl
    | cons e rest =>
      have hsplit : s.keptEntries container filter =
          (e :: rest.take size) ++ rest.drop size := by
        rw [hkept, List.cons_append, List.take_append_drop]
      have hleft := Store.keptEntries_removeAll hsplit
      rw [hsplit, List.forall_mem_append] at hnames
      show outcome (remove ((e :: rest.take size).map _) >>= _) s = _
      rw [outcome_bind, hremove hsplit hnames.1, ← Store.purged_removeAll hsplit]
      refine ih ?_ ?_
      · rw [hleft]
        exact hnames.2
      · rw [hkept, List.length_cons] at hmost
        rw [hleft, List.length_drop]
        omega

/-! ### Items that name their keys -/

/-- Every item of the container has the id that it is filed under, and its partition key, read as a
path with dots, names its partition. -/
def NamesKeys (s : Store) (container : String) (schema : Schema) : Prop :=
  ∀ key item, s.find? container key = some item →
    item.id? = some key.id ∧
      (item.lookup? schema.partitionKeyName).bind Item.keyText? = some key.partition

theorem NamesKeys.of_includes {schema : Schema} (h : NamesKeys s container schema)
    (hincludes : s.Includes s') : NamesKeys s' container schema :=
  fun key item hitem => h key item (hincludes container key item hitem)

/-- The row of an item that names its key names the key. -/
theorem rowNames_of_namesKeys {schema : Schema} (hname : schema.NamesField) {key : String}
    {value : Value} {q : Query} (hmatch : Query.keyMatch schema key value = .ok q)
    (hs : NamesKeys s container schema) {e : ItemKey × Item} (hfound : s.find? container e.1 = some e.2)
    (fallback : Option String) : RowNames container fallback (e.2.project q.projection) e.1 := by
  obtain ⟨hid, hpartition⟩ := hs e.1 e.2 hfound
  obtain ⟨hrowId, hrowPartition⟩ := get?_keyRow hname hmatch e.2
  have hrow : (e.2.project q.projection).id? = some e.1.id := by
    rw [Item.id?, hrowId]
    exact hid
  have hrowKey : ((e.2.project q.projection).get? Query.partitionField).bind Item.keyText? =
      some e.1.partition := by
    rw [hrowPartition]
    exact hpartition
  rw [RowNames, matchedKey, hrow]
  dsimp only
  rw [hrowKey]
  rfl

/-- A deletion in a container whose items name their keys takes out what the filter of its query
keeps. -/
theorem outcome_deleteMatching {schema : Schema} (hname : schema.NamesField) {key : String}
    {value : Value} {q : Query} (hmatch : Query.keyMatch schema key value = .ok q)
    (hs : NamesKeys s schema.container schema) (batch : UInt64) :
    outcome ((⟨m.backend, registry, hashing⟩ : Service).deleteMatching schema key value batch) s =
      (.ok (), s.purged schema.container q.filter) := by
  have hask : ∀ s, ∃ page,
      outcome (m.backend.query schema.container { q with pageSize := some batch } none) s =
        (.ok page, s) ∧ page.items =
          ((s.keptEntries schema.container q.filter).take (max 1 batch.toNat - 1 + 1)).map
            fun e => e.2.project q.projection := by
    intro s
    rw [Nat.sub_add_cancel (Nat.le_max_left 1 batch.toNat)]
    exact m.exists_outcome_query hmatch schema.container batch s
  have hnames : ∀ e ∈ s.keptEntries schema.container q.filter,
      RowNames schema.container (Item.keyText? value) (e.2.project q.projection) e.1 :=
    fun e he => rowNames_of_namesKeys hname hmatch hs (Store.find?_of_mem_keptEntries he).1 _
  unfold deleteMatching
  rw [hmatch]
  exact outcome_deleteRounds hask (fun h hes => outcome_deletePage h hes batch.toNat) hnames
    (Nat.lt_succ_of_le (Store.length_keptEntries_le_size ..))

/-- Deletions in several such containers come out, and leave what they leave whatever the batch and the
backend in memory. -/
theorem exists_forM_deleteMatching (key : String) {schemas : List Schema} {value : Value}
    {operand : Term} (hvalue : Term.ofValue value = .ok operand)
    (hs : ∀ schema ∈ schemas, schema.NamesField ∧ NamesKeys s schema.container schema) :
    ∃ s', ∀ (m : Memory) (registry : Registry) (hashing : HashOrder) (batch : UInt64),
      outcome (schemas.forM fun schema =>
      (⟨m.backend, registry, hashing⟩ : Service).deleteMatching schema key value batch) s = (.ok (), s') := by
  induction schemas generalizing s with
  | nil => exact ⟨s, fun _ _ _ _ => rfl⟩
  | cons schema rest ih =>
    obtain ⟨⟨hname, hkeys⟩, hrest⟩ := List.forall_mem_cons.1 hs
    obtain ⟨q, hmatch⟩ := Query.exists_keyMatch hvalue schema key
    have hfirst (m : Memory) (registry : Registry) (hashing : HashOrder) (batch : UInt64) :
        outcome ((⟨m.backend, registry, hashing⟩ : Service).deleteMatching schema key value batch) s =
          (.ok (), s.purged schema.container q.filter) := outcome_deleteMatching hname hmatch hkeys batch
    have hincludes : s.Includes (s.purged schema.container q.filter) :=
      fun _ _ _ => Store.find?_of_removeAll
    obtain ⟨s', hs'⟩ := ih fun schema' hschema' =>
      ⟨(hrest schema' hschema').1, (hrest schema' hschema').2.of_includes hincludes⟩
    exact ⟨s', fun m registry hashing batch => outcome_forM_cons_eq_ok_iff.2
      ⟨_, hfirst m registry hashing batch, hs' m registry hashing batch⟩⟩

/-- **A deletion by a value that can be read comes out, for any containers whose items name their keys,
and leaves the same store whatever the batch and the backend in memory. Of each of the containers it
leaves the items that the filter of its query drops, and it leaves other containers as they
are. Its rounds need no bound for this: they end by themselves.** -/
theorem exists_deleteByKeyValue_eq {ss : List Schema} {containers : List String} {key : String}
    {value : Value} {operand : Term} (hsome : containers ≠ [])
    (hvalue : Term.ofValue value = .ok operand)
    (hs : ∀ container ∈ containers, ∃ schema,
      (Registry.ofList ss).schemas.get? container = some schema ∧ schema.NamesField ∧
        NamesKeys s container schema) :
    ∃ s', (∀ (m : Memory) (hashing : HashOrder) (batch : UInt64), outcome
        ((⟨m.backend, .ofList ss, hashing⟩ : Service).deleteByKeyValue containers key value batch) s =
          (.ok (), s')) ∧
      (∀ container ∉ containers, ∀ k, s'.find? container k = s.find? container k) ∧
      ∀ container ∈ containers, ∃ schema q,
        (Registry.ofList ss).schemas.get? container = some schema ∧
        Query.keyMatch schema key value = .ok q ∧
        (∀ k item, s'.find? container k = some item ↔
          s.find? container k = some item ∧ keeps q.filter item = .ok false) ∧
        ∀ (m : Memory) (hashing : HashOrder) (batch : UInt64) (s₀ : Store), RoundsEnd
          (m.backend.query container { q with pageSize := some batch } none)
          ((⟨m.backend, .ofList ss, hashing⟩ : Service).deletePage container (Item.keyText? value)
            batch.toNat) s₀
          (outcome ((⟨m.backend, .ofList ss, hashing⟩ : Service).deleteMatching schema key value batch)
            s₀) := by
  have hcheck : Checks.someInput .delete containers = .ok () := by
    rw [Checks.someInput, if_neg (by simpa using hsome)]
  obtain ⟨schemas, hschemas⟩ : ∃ schemas, (containers.mapM fun container =>
      (Registry.ofList ss).resolve container .delete) = .ok schemas := by
    refine Result.exists_mapM_eq_ok fun container hcontainer => ?_
    obtain ⟨schema, hget, -⟩ := hs container hcontainer
    exact ⟨schema, Registry.resolve_eq_ok_iff.2 hget⟩
  have hnamed : ∀ schema ∈ schemas, schema.NamesField ∧ NamesKeys s schema.container schema := by
    intro schema hschema
    obtain ⟨container, hcontainer, hresolved⟩ :=
      exists_of_mem_forall₂ (Result.mapM_eq_ok_iff.1 hschemas).flip hschema
    have hget := Registry.resolve_eq_ok_iff.1 hresolved
    obtain ⟨schema', hget', hnamed⟩ := hs container hcontainer
    obtain rfl := Option.some.inj (hget.symm.trans hget')
    rw [Registry.container_of_get?_ofList hget]
    exact hnamed
  obtain ⟨s', hs'⟩ := exists_forM_deleteMatching key hvalue hnamed
  have hout (m : Memory) (hashing : HashOrder) (batch : UInt64) : outcome
      ((⟨m.backend, .ofList ss, hashing⟩ : Service).deleteByKeyValue containers key value batch) s =
        (.ok (), s') :=
    outcome_liftM_bind_eq_ok_iff.2 ⟨(), hcheck,
      outcome_liftM_bind_eq_ok_iff.2 ⟨schemas, hschemas, hs' m _ hashing _⟩⟩
  obtain ⟨hothers, hcontainers⟩ := find?_deleteByKeyValue (hout {} .byKey 0)
  refine ⟨s', hout, hothers, fun container hcontainer => ?_⟩
  obtain ⟨schema, q, hget, hmatch, hfind⟩ := hcontainers container hcontainer
  obtain rfl := Registry.container_of_get?_ofList hget
  refine ⟨schema, q, hget, hmatch, fun k item => ?_,
    fun m hashing batch s₀ => roundsEnd_deleteMatching hmatch batch s₀⟩
  rw [hfind, Query.kept_eq_false_iff hmatch]

theorem namesKeys_put {schema : Schema} {key : ItemKey} {item : Item}
    (hs : NamesKeys s container schema) (hid : item.id? = some key.id)
    (hpartition : (item.lookup? schema.partitionKeyName).bind Item.keyText? = some key.partition) :
    NamesKeys (s.put container key item) container schema := by
  intro key' item' hfound
  rw [Store.find?_put] at hfound
  split at hfound
  · next hkey =>
    cases hfound
    rw [hkey.2]
    exact ⟨hid, hpartition⟩
  · exact hs key' item' hfound

theorem namesField_items : items.NamesField where
  noWildcard := by decide +kernel
  noMarker := by decide +kernel
  noMarkerEnd := by decide +kernel

theorem namesKeys_doneAndDeleted : NamesKeys doneAndDeleted "items" items :=
  namesKeys_put (namesKeys_put nofun (by decide +kernel) (by decide +kernel)) (by decide +kernel)
    (by decide +kernel)

theorem exists_deleteByKeyValue_done_eq : ∃ s',
    (∀ (m : Memory) (hashing : HashOrder) (batch : UInt64),
      outcome ((⟨m.backend, .ofList [items], hashing⟩ : Service).deleteByKeyValue ["items", "items"] "done"
        (.bool true) batch) doneAndDeleted = (.ok (), s')) ∧
    s'.find? "items" ⟨"p", "a"⟩ = none ∧ s'.find? "items" ⟨"p", "b"⟩ = some deletedItem := by
  have hvalue : Term.ofValue (.bool true) = .ok (.boolean true) := rfl
  have hplain : (Value.bool true).IsPlain := trivial
  have hitems : ∀ container ∈ ["items", "items"], ∃ schema,
      (Registry.ofList [items]).schemas.get? container = some schema ∧ schema.NamesField ∧
        NamesKeys doneAndDeleted container schema := by
    intro container hcontainer
    obtain rfl : container = "items" := by simpa using hcontainer
    exact ⟨items, get?_items, namesField_items, namesKeys_doneAndDeleted⟩
  obtain ⟨s', hout, -, hcontainers⟩ :=
    exists_deleteByKeyValue_eq (List.cons_ne_nil _ _) hvalue hitems
  obtain ⟨schema, q, hget, hmatch, hfind, -⟩ := hcontainers "items" List.mem_cons_self
  obtain rfl := Option.some.inj (get?_items.symm.trans hget)
  obtain ⟨-, operand, hoperand, hfilter⟩ := Query.keyMatch_eq_ok hmatch
  have hkept (item : Item) : kept q.filter item = true ↔ item.lookup? "done" = some (.bool true) := by
    rw [hfilter]
    exact kept_keyLeaf_iff hplain hoperand (by decide) item
  refine ⟨s', hout, ?_, (hfind _ _).2 ⟨find?_doneAndDeleted.2, ?_⟩⟩
  · refine Option.eq_none_iff_forall_ne_some.2 fun item hitem => ?_
    obtain ⟨hbefore, hleft⟩ := (hfind _ _).1 hitem
    obtain rfl := Option.some.inj (find?_doneAndDeleted.1.symm.trans hbefore)
    rw [← Query.kept_eq_false_iff hmatch, (hkept doneItem).2 (by decide +kernel)] at hleft
    cases hleft
  · rw [← Query.kept_eq_false_iff hmatch, ← Bool.not_eq_true, hkept]
    decide +kernel

/-- Items in the partitions of a key whose name ends as the marker of a renamed field begins. -/
def renamedItems : Schema := { container := "items", partitionKeyPath := "/x AS" }

def renamedService : Service := { backend := ({} : Memory).backend, registry := .ofList [renamedItems] }

def renamedDone : Store :=
  Store.put {} "items" ⟨"p", "a"⟩ (.ofList [("id", .str "a"), ("x AS", .str "p"), ("done", .bool true)])

/-- A deletion in no containers is refused, and one in a container whose partition key ends as the
marker of a renamed field begins does not find the items that it is for. -/
theorem deleteByKeyValue_not_ok :
    outcome (itemsService.deleteByKeyValue [] "done" (.bool true) 0) doneAndDeleted =
      (.error (.validation (.emptyInput .delete)), doneAndDeleted) ∧
    (Registry.ofList [renamedItems]).schemas.get? "items" = some renamedItems ∧
    '*' ∉ renamedItems.partitionKeyName.toList ∧
    ¬" AS ".toList <:+: renamedItems.partitionKeyName.toList ∧
    NamesKeys renamedDone "items" renamedItems ∧
    (outcome (renamedService.deleteByKeyValue ["items"] "done" (.bool true) 0) renamedDone).1 =
      .error (.notFound "a" "items") := by
  refine ⟨rfl, rfl, by decide +kernel, by decide +kernel, ?_, by decide +kernel⟩
  exact namesKeys_put nofun (by decide +kernel) (by decide +kernel)

end Service
end DocumentStore
