import DocumentStore.Proofs.OrderedMap
import DocumentStore.Proofs.Query.Layout
import DocumentStore.Proofs.Service.Requests
import DocumentStore.Proofs.Service.Windows

/-! Partitions kept apart.

A request for one partition of a container neither sees nor touches what is filed elsewhere. From stores
that agree on the partition it reads one answer, or meets one error, even where other partitions are all
that the container exists for in one of them (`Action.ReadsAlike`). And what it writes leaves the items
elsewhere as they are, however it ends (`Store.SameElsewhere`). `Service.isolated` says both. -/
namespace DocumentStore
open DocumentStore.Action

/-- The stores have the same items in a partition of a container. -/
def Store.AgreesOn (container partition : String) (s s' : Store) : Prop :=
  ∀ id, s.find? container ⟨partition, id⟩ = s'.find? container ⟨partition, id⟩

/-- The stores have the same items in all other containers, and in the other partitions of this one. -/
def Store.SameElsewhere (container partition : String) (s s' : Store) : Prop :=
  ∀ other key, other ≠ container ∨ key.partition ≠ partition → s'.find? other key = s.find? other key

instance (container partition : String) :
    IsPreorder Store (Store.SameElsewhere container partition) where
  refl _ _ _ _ := rfl
  trans _ _ _ h h' other key helse := (h' other key helse).trans (h other key helse)

/-! ### Reading -/

/-- From stores in the relation the action reads one answer, or meets one error, and leaves each as it
is. -/
def Action.ReadsAlike (R : Store → Store → Prop) (a : Action α) : Prop :=
  ∀ s s', R s s' → ∃ result, outcome a s = (result, s) ∧ outcome a s' = (result, s')

namespace Action
variable {R : Store → Store → Prop}

theorem readsAlike_pure (x : α) : ReadsAlike R (pure x) := fun _ _ _ => ⟨.ok x, rfl, rfl⟩

theorem readsAlike_ofReading {reading : Store → Result α}
    (h : ∀ s s', R s s' → reading s = reading s') : ReadsAlike R (ofReading reading) := by
  intro s s' hrel
  refine ⟨reading s, rfl, ?_⟩
  rw [outcome_ofReading, h s s' hrel]

theorem readsAlike_bind {a : Action α} {f : α → Action β} (ha : ReadsAlike R a)
    (hf : ∀ x, ReadsAlike R (f x)) : ReadsAlike R (a >>= f) := by
  intro s s' hrel
  obtain ⟨result, hs, hs'⟩ := ha s s' hrel
  rw [outcome_bind, outcome_bind, hs, hs']
  cases result with
  | error e => exact ⟨.error e, rfl, rfl⟩
  | ok x => exact hf x s s' hrel

theorem readsAlike_liftM_bind {r : Result α} {f : α → Action β}
    (hf : ∀ x, r = .ok x → ReadsAlike R (f x)) : ReadsAlike R (liftM r >>= f) := by
  intro s s' hrel
  rw [outcome_bind, outcome_bind]
  cases r with
  | error e => exact ⟨.error e, rfl, rfl⟩
  | ok x => exact hf x rfl s s' hrel

theorem ReadsAlike.answer_eq {a : Action α} (ha : ReadsAlike R a) {s s' : Store} (hrel : R s s') :
    (outcome a s).1 = (outcome a s').1 := by
  obtain ⟨result, hs, hs'⟩ := ha s s' hrel
  rw [hs, hs']

end Action

variable {container partition : String} {s s' : Store} {q : Query}

/-- What a query of one partition finds depends on the items of that partition alone. -/
theorem Store.AgreesOn.matching_eq (h : s.AgreesOn container partition s')
    (hq : q.partitionValue = some partition) :
    (s.shelf container).matching q = (s'.shelf container).matching q := by
  have hget (s : Store) (key : ItemKey) :
      ((s.shelf container).filter fun key _ => partition == key.partition).get? key =
        if partition == key.partition then s.find? container key else none :=
    OrderedMap.get?_filter (fun key : ItemKey => partition == key.partition) _ _
  have hscoped : ((s.shelf container).filter fun key _ => partition == key.partition) =
      (s'.shelf container).filter fun key _ => partition == key.partition := by
    refine OrderedMap.ext_get? fun key => ?_
    rw [hget, hget]
    split
    · next hpartition =>
      obtain ⟨_, id⟩ := key
      obtain rfl := beq_iff_eq.1 hpartition
      exact h id
    · rfl
  rw [Shelf.matching_eq_select, Shelf.matching_eq_select, hq]
  exact congrArg (fun shelf : Shelf => select q.filter shelf.values) hscoped

theorem Store.AgreesOn.readMany_eq (h : s.AgreesOn container partition s') (ids : List String) :
    Store.readMany container (ids.map (·, partition)) s =
      Store.readMany container (ids.map (·, partition)) s' := by
  unfold Store.readMany
  rw [List.filterMap_map, List.filterMap_map]
  exact congrArg (List.filterMap · ids) (funext h)

theorem Query.of_counting {schema : Schema} {criteria : Option Criteria}
    (h : Query.counting schema partition criteria = .ok q) :
    q.count = true ∧ q.partitionValue = some partition := by
  obtain ⟨base, hbase, h⟩ := Result.bind_eq_ok_iff.1 h
  obtain ⟨_, -, rfl⟩ := inPartition_eq_ok_iff.1 hbase
  cases h
  exact ⟨rfl, rfl⟩

namespace Service
variable {m : Memory} {registry : Registry} {hashing : HashOrder}

theorem hits_congr (h : s.AgreesOn container partition s') (c : Criteria) :
    hits registry container partition c s = hits registry container partition c s' := by
  unfold hits
  simp only [h.matching_eq (q := .ofPartition _ partition c) rfl]

theorem readsAlike_findByIds (container : String) (ids : List String) (partition : String) :
    ReadsAlike (Store.AgreesOn container partition)
      ((⟨m.backend, registry, hashing⟩ : Service).findByIds container ids partition) :=
  readsAlike_liftM_bind fun _ _ => readsAlike_liftM_bind fun _ _ => readsAlike_liftM_bind fun _ _ =>
    readsAlike_bind (readsAlike_ofReading fun _ _ h => congrArg Except.ok (h.readMany_eq ids)) fun _ =>
      readsAlike_pure _

/-- Calls that show the items of the container alike read it alike. -/
theorem findByIds_eq {hashing' : HashOrder} (container : String) (ids : List String) (partition : String)
    (hdraws : ∀ schema, registry.resolve container .query = .ok schema → schema.DrawsAlike hashing hashing') :
    (⟨m.backend, registry, hashing'⟩ : Service).findByIds container ids partition =
      (⟨m.backend, registry, hashing⟩ : Service).findByIds container ids partition := by
  unfold findByIds
  refine liftM_bind_congr fun _ _ => liftM_bind_congr fun _ _ => liftM_bind_congr fun schema hschema => ?_
  rw [(hdraws schema hschema).external_eq]

theorem readsAlike_find (container partition : String) (criteria : Option Criteria)
    (options : SearchOptions) :
    ReadsAlike (Store.AgreesOn container partition)
      ((⟨m.backend, registry, hashing⟩ : Service).find container partition criteria options) := by
  intro s s' h
  refine ⟨_, outcome_find criteria, ?_⟩
  rw [outcome_find]
  simp only [hits_congr h]

theorem readsAlike_count (container partition : String) (criteria : Option Criteria) :
    ReadsAlike (Store.AgreesOn container partition)
      ((⟨m.backend, registry, hashing⟩ : Service).count container partition criteria) := by
  refine readsAlike_liftM_bind fun _ _ => ?_
  have hcounting : ReadsAlike (Store.AgreesOn container partition) (do
      let schema ← (⟨m.backend, registry, hashing⟩ : Service).schema container .query
      let query ← Query.counting schema partition criteria
      return ((← m.backend.rows container query).map countOf).foldr (· + ·) 0) := by
    refine readsAlike_liftM_bind fun schema _ => readsAlike_liftM_bind fun q hq => ?_
    obtain ⟨hcount, hscope⟩ := Query.of_counting hq
    intro s s' h
    refine ⟨_, outcome_rows_counting hcount, ?_⟩
    rw [h.matching_eq hscope]
    exact outcome_rows_counting hcount
  cases criteria with
  | none => exact hcounting
  | some c => exact readsAlike_liftM_bind fun _ _ => hcounting

/-! ### Writing -/

theorem sameElsewhere_deleteByIds (container partition : String) (ids : List String) :
    Moves (Store.SameElsewhere container partition)
      ((⟨m.backend, registry, hashing⟩ : Service).deleteByIds container partition ids) := by
  have hdelete (id : String) : Moves (Store.SameElsewhere container partition)
      (m.backend.delete container id partition) := by
    refine moves_ofChange fun s s' item h other key helse => ?_
    rw [(Store.Without.of_delete h).find?, if_neg]
    intro hkey
    obtain rfl := List.mem_singleton.1 hkey.2
    exact helse.elim (absurd hkey.1) (absurd rfl)
  exact moves_liftM_bind fun _ _ => moves_liftM_bind fun _ _ =>
    moves_bind (moves_mapM fun id _ => moves_attempt (hdelete id)) fun _ => moves_pure _

theorem sameElsewhere_revise (container id partition : String) (revision : Item → Item) :
    Moves (Store.SameElsewhere container partition)
      ((⟨m.backend, registry, hashing⟩ : Service).revise container id partition revision) := by
  intro s other key helse
  rw [outcome_revise]
  split
  · rfl
  · rw [Store.find?_put, if_neg]
    intro hkey
    exact helse.elim (absurd hkey.1) fun hne => hne (congrArg ItemKey.partition hkey.2)

theorem sameElsewhere_mark (container : String) (ids : List String) (partition : String)
    (deleted : Bool) (delay : Option PurgeDelay) :
    Moves (Store.SameElsewhere container partition)
      ((⟨m.backend, registry, hashing⟩ : Service).mark container ids partition deleted delay) :=
  moves_liftM_bind fun _ _ => moves_liftM_bind fun _ _ =>
    moves_bind (moves_mapM fun _ _ => sameElsewhere_revise _ _ _ _) fun _ => moves_pure _

theorem sameElsewhere_update (container id partition : String) (updates : Item)
    (returned : ReturnValue) :
    Moves (Store.SameElsewhere container partition)
      ((⟨m.backend, registry, hashing⟩ : Service).update container id partition updates returned) :=
  moves_liftM_bind fun _ _ => moves_liftM_bind fun _ _ =>
    moves_bind (sameElsewhere_revise _ _ _ _) fun _ => moves_pure _

/-! ### Isolation -/

/-- **Requests for one partition of a container read the same from stores that agree on it, errors
included: searches if the calls draw the same way back to external names or there is only one, and counts in
any case. And they leave all that is filed elsewhere as it is, whether they come out or fail.** -/
theorem isolated (m : Memory) (registry : Registry) (container partition : String) :
    (∀ hashing hashing', ∀ s s' : Store, s.AgreesOn container partition s' →
      ((∀ schema, registry.resolve container .query = .ok schema → schema.DrawsAlike hashing hashing') →
        (∀ ids,
          (outcome ((⟨m.backend, registry, hashing'⟩ : Service).findByIds container ids partition) s).1 =
            (outcome ((⟨m.backend, registry, hashing⟩ : Service).findByIds container ids partition) s').1) ∧
        ∀ criteria options,
          (outcome ((⟨m.backend, registry, hashing'⟩ : Service).find container partition criteria options)
            s).1 =
          (outcome ((⟨m.backend, registry, hashing⟩ : Service).find container partition criteria options)
            s').1) ∧
      ∀ criteria,
        (outcome ((⟨m.backend, registry, hashing'⟩ : Service).count container partition criteria) s).1 =
          (outcome ((⟨m.backend, registry, hashing⟩ : Service).count container partition criteria) s').1) ∧
    ∀ hashing (s : Store) (other : String) (key : ItemKey), other ≠ container ∨ key.partition ≠ partition →
      (∀ ids,
        (outcome ((⟨m.backend, registry, hashing⟩ : Service).deleteByIds container partition ids) s).2.find?
          other key = s.find? other key) ∧
      (∀ ids delay,
        (outcome ((⟨m.backend, registry, hashing⟩ : Service).softDelete container ids partition delay)
          s).2.find? other key = s.find? other key) ∧
      (∀ ids delay,
        (outcome ((⟨m.backend, registry, hashing⟩ : Service).undelete container ids partition delay)
          s).2.find? other key = s.find? other key) ∧
      ∀ id updates returned,
        (outcome ((⟨m.backend, registry, hashing⟩ : Service).update container id partition updates returned)
          s).2.find? other key = s.find? other key := by
  refine ⟨fun hashing hashing' s s' hagrees =>
      ⟨fun hdraws => ⟨fun ids => ?_, fun criteria options => ?_⟩, fun criteria => ?_⟩,
    fun hashing s other key helse => ⟨fun ids => ?_, fun ids delay => ?_, fun ids delay => ?_,
      fun id updates returned => ?_⟩⟩
  · rw [findByIds_eq container ids partition hdraws]
    exact (readsAlike_findByIds container ids partition).answer_eq hagrees
  · rw [outcome_find_eq rfl hdraws criteria]
    exact (readsAlike_find container partition criteria options).answer_eq hagrees
  · exact (readsAlike_count container partition criteria).answer_eq hagrees
  · exact sameElsewhere_deleteByIds container partition ids s other key helse
  · exact moves_discard (sameElsewhere_mark container ids partition true delay) s other key helse
  · exact sameElsewhere_mark container ids partition false delay s other key helse
  · exact sameElsewhere_update container id partition updates returned s other key helse

theorem isolated_ranked :
    (outcome (rankedService.find "items" "p" (some rankTwo) {}) rankedStore).1 =
      (outcome (rankedService.find "items" "p" (some rankTwo) {})
        (rankedStore.remove "items" ⟨"q", "d"⟩)).1 ∧
    (outcome (rankedService.count "items" "r" none) rankedStore).1 =
      (outcome (rankedService.count "items" "r" none) {}).1 ∧
    (outcome (rankedService.deleteByIds "items" "p" ["a", "d"]) rankedStore).2.find? "items" ⟨"q", "d"⟩ =
      some (ranked "d" "1") := by
  have hwithout : rankedStore.AgreesOn "items" "p" (rankedStore.remove "items" ⟨"q", "d"⟩) := by
    intro id
    have hother : "p" ≠ "q" := by decide
    rw [Store.find?_remove, if_neg fun hkey => hother (congrArg ItemKey.partition hkey.2)]
  have hnone : rankedStore.AgreesOn "items" "r" {} := by
    intro id
    simp only [rankedStore, Store.find?_put, ItemKey.mk.injEq]
    rfl
  obtain ⟨hreads, hwrites⟩ := isolated {} rankedService.registry "items" "p"
  obtain ⟨-, hfind⟩ := (hreads .byKey .byKey _ _ hwithout).1 fun _ _ => .inl rfl
  obtain ⟨-, hcount⟩ := (isolated {} rankedService.registry "items" "r").1 .byKey .byKey _ _ hnone
  obtain ⟨hdelete, -⟩ := hwrites .byKey rankedStore "items" ⟨"q", "d"⟩ (.inr (by decide))
  exact ⟨hfind _ _, hcount none, (hdelete ["a", "d"]).trans rfl⟩

end Service
end DocumentStore
