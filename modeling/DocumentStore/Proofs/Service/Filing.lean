import DocumentStore.Proofs.Service.DeletionByValue
import DocumentStore.Proofs.Service.EachItem
import DocumentStore.Proofs.Service.Revision

/-! Where items are filed.

An item belongs under its id, in the partition that its partition key names (`Schema.Files`). Creations
file items there and deletions move none, but a revision is filed where the item was, whatever it makes
of the partition key. So items stay where they belong as long as no request changes the attribute that
the partition key path starts at (`find?_after_files`), and the first update that moves an item to
another partition leaves it under the old one (`filedIn_update_iff`). -/
namespace DocumentStore
open DocumentStore.Action
open Json (Value)

variable {m : Memory} {registry : Registry} {hashing : HashOrder} {container : String} {schema : Schema}
  {key : ItemKey} {old item : Item} {s s' : Store}

/-- The attribute that the partition key path starts at. -/
def Schema.partitionRoot (schema : Schema) : String :=
  (Item.slashed schema.partitionKeyPath).headD ""

/-- The item belongs under the key: it has the id, and its partition key names the partition. -/
structure Schema.Files (schema : Schema) (key : ItemKey) (item : Item) : Prop where
  id : item.id? = some key.id
  partition : schema.partitionOf item = .ok key.partition

/-- Every item of the container is under the key that it belongs under. -/
def Store.FiledIn (s : Store) (container : String) (schema : Schema) : Prop :=
  ∀ key item, s.find? container key = some item → schema.Files key item

/-- Items that were where they belong still are. -/
def Store.KeepsFiling (container : String) (schema : Schema) (s s' : Store) : Prop :=
  s.FiledIn container schema → s'.FiledIn container schema

instance : IsPreorder Store (Store.KeepsFiling container schema) where
  refl _ h := h
  trans _ _ _ h h' hs := h' (h hs)

/-! ### Single items -/

theorem Schema.partitionOf_eq_ok_iff {partition : String} :
    schema.partitionOf item = .ok partition ↔
      (item.atKeyPath? schema.partitionKeyPath).bind Item.keyText? = some partition := by
  unfold partitionOf
  split
  · next h => rw [h, Except.ok.injEq, Option.some.injEq]
  · next h => rw [h]; exact ⟨nofun, nofun⟩

/-- The partition key reads no attribute but its root. -/
theorem Schema.atKeyPath?_congr {item item' : Item}
    (h : item.get? schema.partitionRoot = item'.get? schema.partitionRoot) :
    item.atKeyPath? schema.partitionKeyPath = item'.atKeyPath? schema.partitionKeyPath := by
  unfold partitionRoot at h
  unfold Item.atKeyPath?
  cases hpath : Item.slashed schema.partitionKeyPath with
  | nil => rfl
  | cons name rest =>
    rw [hpath] at h
    rw [Item.at?, Item.at?, show item.get? name = item'.get? name from h]

theorem Schema.partitionOf_congr {item item' : Item}
    (h : item.get? schema.partitionRoot = item'.get? schema.partitionRoot) :
    schema.partitionOf item = schema.partitionOf item' := by
  rw [partitionOf, partitionOf, atKeyPath?_congr h]

/-- A revision belongs where it is filed if its partition key names the partition still. If the path
starts at the id it does, since the revision gets the id of the key. -/
theorem Schema.files_refiled_iff (hroot : schema.partitionRoot ∉ Reserved.systemFields)
    (hold : schema.Files key old) {revised : Item} :
    schema.Files key (Service.refiled m s container key.id revised) ↔
      schema.partitionRoot = Reserved.id ∨ schema.partitionOf revised = .ok key.partition := by
  have hget : (Service.refiled m s container key.id revised).get? schema.partitionRoot =
      if schema.partitionRoot = Reserved.id then some (.str key.id)
      else revised.get? schema.partitionRoot := Service.get?_refiled hroot
  have hid : (Service.refiled m s container key.id revised).id? = some key.id := by
    rw [← Item.get?_id_iff, Service.get?_refiled (by decide), if_pos rfl]
  by_cases hkey : schema.partitionRoot = Reserved.id
  · rw [if_pos hkey, ← Item.get?_id_iff.2 hold.id, ← hkey] at hget
    refine iff_of_true ⟨hid, ?_⟩ (.inl hkey)
    rw [Schema.partitionOf_congr hget, hold.partition]
  · rw [if_neg hkey] at hget
    have hsame := Schema.partitionOf_congr hget
    constructor
    · exact fun h => .inr (hsame ▸ h.partition)
    · exact fun h => ⟨hid, hsame.trans (h.resolve_left hkey)⟩

/-- An updated item stays in its partition if the update lacks the root of the partition key, or names
the partition itself. -/
theorem Schema.partitionOf_revised_iff (hroot : schema.partitionRoot ∉ Reserved.systemFields)
    (hold : schema.Files key old) {aliases : Aliases} {updates : Item} :
    schema.partitionOf (Item.revised aliases updates old) = .ok key.partition ↔
      (aliases.storedItem updates).get? schema.partitionRoot = none ∨
        schema.partitionOf (aliases.storedItem updates) = .ok key.partition := by
  have hget : (Item.revised aliases updates old).get? schema.partitionRoot =
      ((aliases.storedItem updates).get? schema.partitionRoot).or (old.get? schema.partitionRoot) :=
    Item.get?_revised hroot
  cases hset : (aliases.storedItem updates).get? schema.partitionRoot with
  | none =>
    rw [hset, Option.none_or] at hget
    refine iff_of_true ?_ (.inl rfl)
    rw [Schema.partitionOf_congr hget, hold.partition]
  | some v =>
    rw [hset, Option.some_or, ← hset] at hget
    rw [Schema.partitionOf_congr hget]
    simp

/-! ### Single requests -/

/-- The update that the request asks for, if it is one, keeps items in their partition, and the path
does not start where the request sets a mark. -/
def Request.KeepsPartition (container : String) (schema : Schema) : Request → Prop
  | update c _ partition updates _ => c = container →
    schema.partitionRoot = Reserved.id ∨
      (schema.aliases.storedItem updates).get? schema.partitionRoot = none ∨
        schema.partitionOf (schema.aliases.storedItem updates) = .ok partition
  | softDelete c _ _ delay | undelete c _ _ delay => c = container →
    schema.partitionRoot ≠ Reserved.isDeleted ∧
      (delay.isSome → schema.partitionRoot ≠ Reserved.ttl)
  | _ => True

namespace Service

theorem partitionOf_of_prepare {prepared : String × Item} (h : schema.prepare item = .ok prepared) :
    schema.partitionOf prepared.2 = .ok prepared.1 := by
  obtain ⟨_, -, -, hpartition⟩ := Schema.prepare_eq_ok_iff.1 h
  exact hpartition

theorem moves_create (hget : registry.schemas.get? container = some schema)
    (hroot : schema.partitionRoot ∉ Reserved.systemFields) (other : String) (items : List Item) :
    Moves (Store.KeepsFiling container schema)
      ((⟨m.backend, registry, hashing⟩ : Service).create other items) := by
  refine moves_create_each (P := schema.Files) hget fun _ item _ p key n hprepare hkey => ?_
  obtain ⟨id, hid, rfl⟩ := Option.map_eq_some_iff.1 hkey
  refine ⟨Item.id?_stamped.trans hid, ?_⟩
  rw [Schema.partitionOf_congr (Item.get?_stamped hroot)]
  exact partitionOf_of_prepare hprepare

/-- A revision keeps items where they belong if what it makes of the item under the key belongs
there. -/
theorem moves_revise {other id partition : String} {revision : Item → Item}
    (hroot : schema.partitionRoot ∉ Reserved.systemFields)
    (h : other = container → schema.partitionRoot = Reserved.id ∨
      ∀ old, schema.Files ⟨partition, id⟩ old → schema.partitionOf (revision old) = .ok partition) :
    Moves (Store.KeepsFiling container schema)
      ((⟨m.backend, registry, hashing⟩ : Service).revise other id partition revision) := by
  refine moves_revise_each (P := schema.Files) fun hother old s hold => ?_
  exact (Schema.files_refiled_iff hroot hold).2 ((h hother).imp_right fun h => h old hold)

theorem moves_mark (hroot : schema.partitionRoot ∉ Reserved.systemFields) (other : String)
    (ids : List String) (partition : String) (deleted : Bool) (delay : Option PurgeDelay)
    (h : other = container → schema.partitionRoot ≠ Reserved.isDeleted ∧
      (delay.isSome → schema.partitionRoot ≠ Reserved.ttl)) :
    Moves (Store.KeepsFiling container schema)
      ((⟨m.backend, registry, hashing⟩ : Service).mark other ids partition deleted delay) := by
  refine moves_liftM_bind fun _ _ => moves_liftM_bind fun _ _ =>
    moves_bind (moves_mapM fun id _ => moves_revise hroot fun hother => .inr fun old hold => ?_)
      fun _ => moves_pure _
  obtain ⟨hmark, hpurge⟩ := h hother
  rw [Schema.partitionOf_congr (Item.get?_marked hroot hmark hpurge)]
  exact hold.partition

theorem moves_update (hget : registry.schemas.get? container = some schema)
    (hroot : schema.partitionRoot ∉ Reserved.systemFields) {other id partition : String}
    {updates : Item} {returned : ReturnValue}
    (h : (Request.update other id partition updates returned).KeepsPartition container schema) :
    Moves (Store.KeepsFiling container schema)
      ((⟨m.backend, registry, hashing⟩ : Service).update other id partition updates returned) := by
  refine moves_update_each (P := schema.Files) hget fun hother old s hold => ?_
  subst hother
  refine (Schema.files_refiled_iff hroot hold).2 ((h rfl).imp_right fun hkeeps => ?_)
  exact (Schema.partitionOf_revised_iff hroot hold).2 hkeeps

theorem moves_run (hget : registry.schemas.get? container = some schema)
    (hroot : schema.partitionRoot ∉ Reserved.systemFields) (request : Request)
    (h : request.KeepsPartition container schema) :
    Moves (Store.KeepsFiling container schema) (request.run ⟨m.backend, registry, hashing⟩) := by
  have hshrinks : ∀ {a : Action Unit}, Moves Store.Includes a →
      Moves (Store.KeepsFiling container schema) a :=
    fun ha s hs key item hitem => hs key item (ha s container key item hitem)
  cases request with
  | create other items => exact moves_discard (moves_create hget hroot other items)
  | findByIds other ids partition => exact moves_discard (moves_findByIds other ids partition)
  | find other partition criteria options =>
    exact moves_discard (moves_find other partition criteria options)
  | count other partition criteria => exact moves_discard (moves_count other partition criteria)
  | deleteByIds other partition ids =>
    exact hshrinks (moves_discard (moves_deleteByIds other partition ids))
  | deleteByKeyValue containers key value batch =>
    exact hshrinks (moves_deleteByKeyValue containers key value batch)
  | softDelete other ids partition delay =>
    exact moves_discard (moves_mark hroot other ids partition true delay h)
  | undelete other ids partition delay =>
    exact moves_discard (moves_mark hroot other ids partition false delay h)
  | update other id partition updates returned => exact moves_discard (moves_update hget hroot h)
  | cloneByKeyValue => exact moves_discard fun s => Std.Refl.refl s

/-! ### Runs -/

/-- **Whatever is asked of a service on an empty store, in any order, every item of a registered
container is under its own id, in the partition that its partition key names, as long as no update sets
the attribute at which the partition key path starts to something else, and that attribute is none of
those that the service and the store set themselves.** -/
theorem find?_after_files (hget : registry.schemas.get? container = some schema)
    (hroot : schema.partitionRoot ∉ Reserved.systemFields) {requests : List Request}
    (h : ∀ request ∈ requests, request.KeepsPartition container schema)
    (hitem : ((⟨m.backend, registry, hashing⟩ : Service).after requests {}).find? container key = some item) :
    item.id? = some key.id ∧
      (item.atKeyPath? schema.partitionKeyPath).bind Item.keyText? = some key.partition := by
  have hempty : Store.FiledIn {} container schema := fun _ _ h => nomatch h
  have hfiles := after_moves (fun request hrequest => moves_run hget hroot request (h request hrequest))
    {} hempty key item hitem
  exact ⟨hfiles.id, Schema.partitionOf_eq_ok_iff.1 hfiles.partition⟩

theorem exists_after_files : ∃ item,
    (itemsService.after [
      .create "items" [doneItem, deletedItem],
      .update "items" "a" "p" (.ofList [("pk", .str "p"), ("id", .str "c"), ("done", .null)]) .allNew,
      .softDelete "items" ["b", "missing"] "p" (some ⟨2⟩),
      .deleteByKeyValue ["items"] "done" (.bool true) 0] {}).find? "items" ⟨"p", "a"⟩ = some item ∧
    item.id? = some "a" ∧ (item.atKeyPath? items.partitionKeyPath).bind Item.keyText? = some "p" := by
  have hthere : ((itemsService.after [
      .create "items" [doneItem, deletedItem],
      .update "items" "a" "p" (.ofList [("pk", .str "p"), ("id", .str "c"), ("done", .null)]) .allNew,
      .softDelete "items" ["b", "missing"] "p" (some ⟨2⟩),
      .deleteByKeyValue ["items"] "done" (.bool true) 0] {}).find? "items" ⟨"p", "a"⟩).isSome := by
    decide +kernel
  obtain ⟨item, hitem⟩ := Option.isSome_iff_exists.1 hthere
  have hroot : items.partitionRoot ∉ Reserved.systemFields := by decide +kernel
  refine ⟨item, hitem, find?_after_files get?_items hroot ?_ hitem⟩
  simp only [List.forall_mem_cons, List.not_mem_nil, false_imp_iff, implies_true, and_true]
  refine ⟨trivial, fun _ => .inr (.inr (by decide +kernel)), fun _ => by decide +kernel, trivial⟩

/-! ### Updates that move an item -/

/-- Among items that are where they belong, an update leaves an item that does not, exactly if it sets
the root of the partition key and does not name the partition with it. -/
theorem filedIn_update_iff (hget : registry.schemas.get? container = some schema)
    (hroot : schema.partitionRoot ∉ Reserved.systemFields) (hs : s.FiledIn container schema)
    {id partition : String} {updates : Item} {returned : ReturnValue} {answer : Update}
    (h : outcome ((⟨m.backend, registry, hashing⟩ : Service).update container id partition updates returned) s =
      (.ok answer, s')) :
    s'.FiledIn container schema ↔
      (Request.update container id partition updates returned).KeepsPartition container schema := by
  constructor
  · intro hfiled _
    obtain ⟨_, -, h⟩ := outcome_liftM_bind_eq_ok_iff.1 h
    obtain ⟨schema', hschema, h⟩ := outcome_liftM_bind_eq_ok_iff.1 h
    obtain rfl := schema_unique hget hschema
    obtain ⟨_, s₁, hrevise, h⟩ := outcome_bind_eq_ok_iff.1 h
    cases h
    rw [outcome_revise] at hrevise
    cases hfound : s.find? container ⟨partition, id⟩ with
    | none =>
      rw [hfound] at hrevise
      cases hrevise
    | some old =>
      rw [hfound] at hrevise
      cases hrevise
      have hold := hs _ old hfound
      have hnew := hfiled ⟨partition, id⟩ _ (by rw [Store.find?_put, if_pos ⟨rfl, rfl⟩])
      exact ((Schema.files_refiled_iff hroot hold).1 hnew).imp_right
        (Schema.partitionOf_revised_iff hroot hold).1
  · intro hkeeps
    have hmoves : Moves (Store.KeepsFiling container schema)
        ((⟨m.backend, registry, hashing⟩ : Service).update container id partition updates returned) :=
      moves_update hget hroot hkeeps
    have hfiled := hmoves s hs
    rw [h] at hfiled
    exact hfiled

/-- An item that is moved to another partition by an update stays under the old one. -/
theorem exists_after_update_misfiled :
    itemsService.registry.schemas.get? "items" = some items ∧ ∃ item,
      (itemsService.after [
        .create "items" [doneItem],
        .update "items" "a" "p" (.ofList [("pk", .str "q")]) .none] {}).find? "items" ⟨"p", "a"⟩ =
          some item ∧
      (item.atKeyPath? items.partitionKeyPath).bind Item.keyText? = some "q" := by
  refine ⟨get?_items, Option.bind_eq_some_iff.1 ?_⟩
  decide +kernel

end Service
end DocumentStore
