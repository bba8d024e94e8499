import DocumentStore.Proofs.Service.DerivedExpiry
import DocumentStore.Proofs.Service.EachItem
import DocumentStore.Proofs.Service.Revision

/-! Expiries and the attributes that they were derived from.

An expiry is derived when an item is created, and an update that leaves `ttl` alone leaves it as it is,
even if it sets the attribute that the expiry was derived from. So whatever updates come behind, the
expiry is that of the item as it was created (`Service.expiry_after`). It is the one that its attribute
gives still as long as no update gives the attribute a date of its own. -/
namespace DocumentStore
open DocumentStore.Action
open Json (Value)

variable {m : Memory} {registry : Registry} {hashing : HashOrder} {container source : String} {schema : Schema}
  {requests : List Request} {key : ItemKey} {first item old updates : Item} {s : Store}

/-- The request creates items or changes one, and where it does so in the container it sets no `ttl`. -/
def Request.LeavesExpiry (container : String) : Request → Prop
  | create c items => c = container → ∀ item ∈ items, item.get? Reserved.ttl = none
  | update c _ _ updates _ => c = container → updates.get? Reserved.ttl = none
  | _ => False

/-- Some of the requests asks to create the item, under the key. -/
def Schema.Creates (schema : Schema) (container : String) (requests : List Request) (key : ItemKey)
    (first : Item) : Prop :=
  ∃ items p, Request.create container items ∈ requests ∧ first ∈ items ∧
    schema.prepare first = .ok p ∧ fileKey? p = some key

/-- Some of the requests gives the attribute the value in the item under the key. An id is given to no
item but by its creation. -/
def ItemKey.IsGiven (key : ItemKey) (container : String) (requests : List Request) (name : String)
    (v : Value) : Prop :=
  name ≠ Reserved.id ∧ ∃ updates returned,
    Request.update container key.id key.partition updates returned ∈ requests ∧
      updates.get? name = some v

/-- The item has the expiry of the one that it was created as, and under the attribute that this was
derived from it has what it was created with, or what an update has given it. -/
structure Item.KeepsExpiry (item first : Item) (source container : String) (requests : List Request)
    (key : ItemKey) : Prop where
  expiry : ∃ expiry, expirySeconds? source (first.get? source) = .ok expiry ∧
    item.get? Reserved.ttl = expiry.map .int
  current : source ∉ Reserved.systemFields → item.get? source = first.get? source ∨
    ∃ v, item.get? source = some v ∧ key.IsGiven container requests source v

/-! ### Creations -/

theorem Aliases.storedItem_empty (item : Item) : empty.storedItem item = item :=
  OrderedMap.ext_get? fun _ => get?_renameItem_of_unclaimed rfl fun _ _ _ h => h

theorem Item.of_withExpiry {derived : Item} (h : item.withExpiry (some source) = .ok derived) :
    (∃ expiry, expirySeconds? source (item.get? source) = .ok expiry ∧
      derived.get? Reserved.ttl = (expiry.map Value.int).or (item.get? Reserved.ttl)) ∧
    ∀ name, name ≠ Reserved.ttl → derived.get? name = item.get? name := by
  obtain ⟨expiry, hexpiry, h⟩ := Result.bind_eq_ok_iff.1 h
  cases expiry with
  | none =>
    cases h
    exact ⟨⟨none, hexpiry, rfl⟩, fun _ _ => rfl⟩
  | some n =>
    cases h
    refine ⟨⟨some n, hexpiry, ?_⟩, fun name hname => ?_⟩
    · rw [OrderedMap.get?_insert, if_pos rfl]
      rfl
    · rw [OrderedMap.get?_insert, if_neg hname]

section Unaliased
variable (haliases : schema.aliases = .empty) (hexpiry : schema.expirySource = some source)

include haliases hexpiry

theorem Schema.of_prepare_unaliased {p : String × Item} (h : schema.prepare item = .ok p) :
    (∃ expiry, expirySeconds? source (item.get? source) = .ok expiry ∧
      p.2.get? Reserved.ttl = (expiry.map Value.int).or (item.get? Reserved.ttl)) ∧
    ∀ name, name ≠ Reserved.ttl → p.2.get? name = item.get? name := by
  obtain ⟨derived, hderived, hstored, -⟩ := prepare_eq_ok_iff.1 h
  rw [hexpiry] at hderived
  rw [hstored, haliases, Aliases.storedItem_empty]
  exact Item.of_withExpiry hderived

/-- An item is created under its own id. -/
theorem Schema.Creates.get?_id (h : schema.Creates container requests key first) :
    first.get? Reserved.id = some (.str key.id) := by
  obtain ⟨_, p, -, -, hprepare, hkey⟩ := h
  obtain ⟨id, hid, rfl⟩ := Option.map_eq_some_iff.1 hkey
  rw [← (of_prepare_unaliased haliases hexpiry hprepare).2 Reserved.id (by decide)]
  exact Item.get?_id_iff.2 hid

/-- What is filed of a created item has the expiry that is derived for it. -/
theorem Item.keepsExpiry_stamped (hsource : source ≠ Reserved.ttl)
    (hown : first.get? Reserved.ttl = none) {p : String × Item} (hprepare : schema.prepare first = .ok p)
    (stamp : Stamp) :
    Item.KeepsExpiry (p.2.stamped stamp container) first source container requests key := by
  obtain ⟨⟨expiry, hderived, httl⟩, hothers⟩ :=
    Schema.of_prepare_unaliased haliases hexpiry hprepare
  refine ⟨⟨expiry, hderived, ?_⟩, fun hsystem => .inl ?_⟩
  · rw [Item.get?_stamped (by decide), httl, hown, Option.or_none]
  · rw [Item.get?_stamped hsystem, hothers source hsource]

/-! ### Updates -/

/-- An update that leaves `ttl` alone leaves the expiry. -/
theorem Item.KeepsExpiry.refiled (h : old.KeepsExpiry first source container requests key)
    (hcreates : schema.Creates container requests key first) {returned : ReturnValue}
    (hrequest : Request.update container key.id key.partition updates returned ∈ requests)
    (hown : updates.get? Reserved.ttl = none) (s : Store) :
    Item.KeepsExpiry
      (Service.refiled m s container key.id (Item.revised schema.aliases updates old)) first source
      container requests key := by
  rw [haliases]
  have hrevised {name : String} (hsystem : name ∉ Reserved.systemFields) (hid : name ≠ Reserved.id) :
      (Service.refiled m s container key.id (Item.revised .empty updates old)).get? name =
        (updates.get? name).or (old.get? name) := by
    rw [Service.get?_refiled hsystem, if_neg hid, Item.get?_revised hsystem, Aliases.storedItem_empty]
  obtain ⟨expiry, hderived, httl⟩ := h.expiry
  refine ⟨⟨expiry, hderived, ?_⟩, fun hsystem => ?_⟩
  · rw [hrevised (by decide) (by decide), hown, Option.none_or, httl]
  · by_cases hid : source = Reserved.id
    · left
      rw [Service.get?_refiled hsystem, if_pos hid, hid, hcreates.get?_id haliases hexpiry]
    · rw [hrevised hsystem hid]
      cases hset : updates.get? source with
      | none => exact h.current hsystem
      | some v => exact .inr ⟨v, rfl, hid, updates, returned, hrequest, hset⟩

end Unaliased

namespace Service

/-! ### Runs -/

section Runs
variable (hget : registry.schemas.get? container = some schema) (haliases : schema.aliases = .empty)
  (hexpiry : schema.expirySource = some source) (hsource : source ≠ Reserved.ttl)

include hget haliases hexpiry hsource

theorem moves_run_keepsExpiry {request : Request} (hrequest : request ∈ requests)
    (hleaves : request.LeavesExpiry container) :
    Moves (Store.KeepsEach container fun key item => ∃ first,
        schema.Creates container requests key first ∧
          item.KeepsExpiry first source container requests key)
      (request.run ⟨m.backend, registry, hashing⟩) := by
  cases request with
  | create other items =>
    refine moves_discard (moves_create_each hget fun hother first hfirst p key n hprepare hkey => ?_)
    subst hother
    exact ⟨first, ⟨items, p, hrequest, hfirst, hprepare, hkey⟩,
      Item.keepsExpiry_stamped haliases hexpiry hsource (hleaves rfl first hfirst) hprepare _⟩
  | update other id partition updates returned =>
    refine moves_discard (moves_update_each hget fun hother old s hold => ?_)
    subst hother
    obtain ⟨first, hcreates, hkeeps⟩ := hold
    exact ⟨first, hcreates,
      hkeeps.refiled haliases hexpiry hcreates hrequest (hleaves rfl) s⟩
  | _ => cases hleaves

/-- **However items are created and updated, as long as no `ttl` is set, each has under `ttl` the expiry
that was derived for it when it was created. It is the expiry that its attribute gives now, if it gives
any, as long as the attribute is not one that the store sets, and what updates give it, where that gives
an expiry, gives the same.** -/
theorem expiry_after (hleaves : ∀ request ∈ requests, request.LeavesExpiry container)
    (hitem : ((⟨m.backend, registry, hashing⟩ : Service).after requests {}).find? container key = some item) :
    ∃ first, schema.Creates container requests key first ∧
      (∃ expiry, expirySeconds? source (first.get? source) = .ok expiry ∧
        item.get? Reserved.ttl = expiry.map .int) ∧
      (source ∉ Reserved.systemFields →
        (∀ v n, key.IsGiven container requests source v → expirySeconds? source (some v) = .ok (some n) →
          expirySeconds? source (first.get? source) = .ok (some n)) →
        ∀ n, expirySeconds? source (item.get? source) = .ok (some n) →
          item.get? Reserved.ttl = some (.int n)) := by
  obtain ⟨first, hcreates, hkeeps⟩ := after_moves (fun request hrequest =>
    moves_run_keepsExpiry (m := m) hget haliases hexpiry hsource hrequest (hleaves request hrequest))
    {} Store.each_empty key item hitem
  refine ⟨first, hcreates, hkeeps.expiry, fun hsystem hgiven n hn => ?_⟩
  have hsame : expirySeconds? source (first.get? source) = .ok (some n) := by
    obtain hcurrent | ⟨v, hcurrent, hv⟩ := hkeeps.current hsystem
    · rw [← hcurrent, hn]
    · exact hgiven v n hv (hcurrent ▸ hn)
  obtain ⟨expiry, hderived, httl⟩ := hkeeps.expiry
  rw [httl, ← Except.ok.inj (hsame.symm.trans hderived)]
  rfl

end Runs

/-- A container whose items expire at what an attribute says, with no names of its own for any. -/
def terms (source : String) : Schema :=
  ({ container := "leases", partitionKeyPath := "/pk" } : Schema).withExpiry source

def termsService (source : String) : Service where
  backend := Memory.backend {}
  registry := .ofList [terms source]

/-- A lease is created, and then given another date. -/
def renewal (date : Value) : List Request :=
  [.create "leases" [lease], .update "leases" "a" "p" (.ofList [("expiresAt", date)]) .none]

/-- A lease whose date is written again as ticks, to the same second, is still in step with it. -/
theorem exists_expiry_after_rewritten : ∃ item,
    ((termsService "expiresAt").after (renewal (.int 640290528000000000)) {}).find? "leases" ⟨"p", "a"⟩ =
      some item ∧
    item.get? "expiresAt" = some (.int 640290528000000000) ∧
    item.get? Reserved.ttl = some (.int 1893456000) := by
  have hget : (Registry.ofList [terms "expiresAt"]).schemas.get? "leases" = some (terms "expiresAt") :=
    rfl
  have hticks : expirySeconds? "expiresAt" (some (.int 640290528000000000)) = .ok (some 1893456000) := by
    rfl
  have hleaves : ∀ request ∈ renewal (.int 640290528000000000), request.LeavesExpiry "leases" := by
    simp only [renewal, List.forall_mem_cons, List.not_mem_nil, false_imp_iff, implies_true, and_true]
    exact ⟨fun _ => by decide +kernel, fun _ => by decide +kernel⟩
  have hfound : (((termsService "expiresAt").after (renewal (.int 640290528000000000)) {}).find?
      "leases" ⟨"p", "a"⟩).map (·.get? "expiresAt") = some (some (.int 640290528000000000)) := by
    decide +kernel
  obtain ⟨item, hitem, hcurrent⟩ := Option.map_eq_some_iff.1 hfound
  obtain ⟨first, hcreates, -, hstep⟩ :=
    expiry_after (m := {}) hget rfl rfl (by decide) hleaves hitem
  refine ⟨item, hitem, hcurrent, hstep (by decide) ?_ 1893456000 (hcurrent ▸ hticks)⟩
  -- The one update gives the date in ticks, and the one item that is created is the lease.
  intro v n hgiven hn
  obtain ⟨-, updates, returned, hupdate, hv⟩ := hgiven
  obtain ⟨items, p, hcreate, hfirst, -, -⟩ := hcreates
  simp only [renewal, List.mem_cons, List.not_mem_nil, or_false, reduceCtorEq, false_or,
    Request.update.injEq, Request.create.injEq, true_and] at hupdate hcreate
  obtain ⟨rfl, rfl⟩ := hupdate
  subst hcreate
  obtain rfl := List.mem_singleton.1 hfirst
  have hset : OrderedMap.get? (.ofList [("expiresAt", Value.int 640290528000000000)]) "expiresAt" =
      some (.int 640290528000000000) := rfl
  obtain rfl := Option.some.inj (hset.symm.trans hv)
  rw [← hn, hticks, expirySeconds?_lease]

/-- A lease that is extended expires at its old time, and one that is to expire at what the store stamps
expires at what it came with instead. -/
theorem exists_expiry_behind :
    (∃ item, ((termsService "expiresAt").after (renewal (.str "2031-01-01T00:00:00Z")) {}).find?
        "leases" ⟨"p", "a"⟩ = some item ∧
      expirySeconds? "expiresAt" (item.get? "expiresAt") = .ok (some 1924992000) ∧
      item.get? Reserved.ttl = some (.int 1893456000)) ∧
    ∃ item, ((termsService "_ts").after [.create "leases"
        [.ofList [("id", .str "a"), ("pk", .str "p"), ("_ts", .int 621355968010000000)]]]
        {}).find? "leases" ⟨"p", "a"⟩ = some item ∧
      expirySeconds? "_ts" (item.get? "_ts") = .ok (some (-62135596625)) ∧
      item.get? Reserved.ttl = some (.int 1) := by
  have hextended : (((termsService "expiresAt").after (renewal (.str "2031-01-01T00:00:00Z")) {}).find?
      "leases" ⟨"p", "a"⟩).map (fun item => (item.get? "expiresAt", item.get? Reserved.ttl)) =
        some (some (.str "2031-01-01T00:00:00Z"), some (.int 1893456000)) := by
    decide +kernel
  have hstamped : (((termsService "_ts").after [.create "leases"
      [.ofList [("id", .str "a"), ("pk", .str "p"), ("_ts", .int 621355968010000000)]]]
      {}).find? "leases" ⟨"p", "a"⟩).map (fun item => (item.get? "_ts", item.get? Reserved.ttl)) =
        some (some (.int 1750000000), some (.int 1)) := by
    decide +kernel
  obtain ⟨item, hitem, hvalues⟩ := Option.map_eq_some_iff.1 hextended
  obtain ⟨item', hitem', hvalues'⟩ := Option.map_eq_some_iff.1 hstamped
  obtain ⟨hdate, hexpiry⟩ := Prod.mk.inj hvalues
  obtain ⟨htime, hexpiry'⟩ := Prod.mk.inj hvalues'
  refine ⟨⟨item, hitem, ?_, hexpiry⟩, item', hitem', ?_, hexpiry'⟩
  · rw [hdate]
    rfl
  · rw [htime]
    rfl

end Service
end DocumentStore
