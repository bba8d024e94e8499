import DocumentStore.Proofs.Aliases.Collisions
import DocumentStore.Proofs.Service.Creation

/-! Expiries derived from attributes, as they are stored.

A creation enters the expiry under `ttl` before the alias table renames the item. So the expiry is stored
under `ttl` exactly if the attribute that claims the name is this one, or holds the same number
(`Service.exists_filed_expiry`): a table that stores another attribute of the item as `ttl`, or `ttl`
under another name, loses it (`Service.exists_expiry_lost`). -/
namespace DocumentStore
open DocumentStore.Action

variable {m : Memory} {registry : Registry} {hashing : HashOrder} {container source : String} {schema : Schema}
  {s s' : Store} {item : Item} {n : Int}

/-- Of the attributes of an item with an expiry that are stored as `ttl`, the one that counts is the
expiry, or another that holds the same number. -/
def Schema.StoresExpiry (schema : Schema) (item : Item) (n : Int) : Prop :=
  ∃ name, Aliases.claimant? schema.aliases.toStored (item.insert Reserved.ttl (.int n)) Reserved.ttl =
    some name ∧ (name = Reserved.ttl ∨ item.get? name = some (.int n))

namespace Schema

theorem storesExpiry_iff : schema.StoresExpiry item n ↔
    (schema.aliases.storedItem (item.insert Reserved.ttl (.int n))).get? Reserved.ttl =
      some (.int n) := by
  rw [Aliases.storedItem, Aliases.get?_renameItem, Option.bind_eq_some_iff]
  refine exists_congr fun name => and_congr_right fun _ => ?_
  rw [OrderedMap.get?_insert]
  by_cases hname : name = Reserved.ttl <;> simp [hname]

/-- An expiry is stored under `ttl` where the table leaves that name alone and stores no other attribute
of the item under it. -/
theorem storesExpiry_of_unclaimed (hown : schema.aliases.storedName Reserved.ttl = Reserved.ttl)
    (hfree : ∀ name v, item.get? name = some v → schema.aliases.storedName name = Reserved.ttl →
      name = Reserved.ttl) (n : Int) : schema.StoresExpiry item n := by
  rw [storesExpiry_iff, Aliases.storedItem, Aliases.get?_renameItem_of_unclaimed hown]
  · rw [OrderedMap.get?_insert, if_pos rfl]
  · intro name v hv hstored
    by_cases hname : name = Reserved.ttl
    · exact hname
    · rw [OrderedMap.get?_insert, if_neg hname] at hv
      exact hfree name v hv hstored

/-- What is prepared of an item that an expiry is derived for. -/
theorem eq_of_prepare {p : String × Item} (hexpiry : schema.expirySource = some source)
    (hn : expirySeconds? source (item.get? source) = .ok (some n)) (h : schema.prepare item = .ok p) :
    p.2 = schema.aliases.storedItem (item.insert Reserved.ttl (.int n)) := by
  have hderived : item.withExpiry schema.expirySource = .ok (item.insert Reserved.ttl (.int n)) := by
    rw [hexpiry]
    exact Result.bind_eq_ok_iff.2 ⟨some n, hn, rfl⟩
  obtain ⟨derived, hsame, hp, -⟩ := prepare_eq_ok_iff.1 h
  rw [hp, Except.ok.inj (hsame.symm.trans hderived)]

end Schema

namespace Service

/-- Every item of a creation that comes out is prepared and filed. -/
theorem exists_filedAs_of_create (hget : registry.schemas.get? container = some schema)
    {items created : List Item}
    (h : outcome ((⟨m.backend, registry, hashing⟩ : Service).create container items) s = (.ok created, s'))
    (hitem : item ∈ items) :
    ∃ p filed, schema.prepare item = .ok p ∧ FiledAs m container s' p filed := by
  obtain ⟨_, hbatch, hrest⟩ := outcome_liftM_bind_eq_ok_iff.1 h
  obtain ⟨schema', hschema, hrest⟩ := outcome_liftM_bind_eq_ok_iff.1 hrest
  obtain ⟨prepared, hprepared, -⟩ := outcome_liftM_bind_eq_ok_iff.1 hrest
  obtain rfl := Option.some.inj (hget.symm.trans (Registry.resolve_eq_ok_iff.1 hschema))
  rw [← createInOrder_range] at h
  obtain ⟨-, filed, hfiled⟩ := outcome_createInOrder hbatch hget hprepared (List.Perm.refl _) h
  obtain ⟨p, hp, hprepare⟩ := exists_of_mem_forall₂ (Result.mapM_eq_ok_iff.1 hprepared) hitem
  obtain ⟨stored, -, hstored⟩ := exists_of_mem_forall₂ hfiled hp
  exact ⟨p, stored, hprepare, hstored⟩

/-- **What is filed of an item has the expiry that is derived for it under `ttl` exactly if the
attribute that claims the name is the expiry, or holds the same number.** So it has where the table
leaves `ttl` alone and stores no other attribute of the item under that name. -/
theorem exists_filed_expiry (hget : registry.schemas.get? container = some schema)
    (hexpiry : schema.expirySource = some source) {items created : List Item}
    (h : outcome ((⟨m.backend, registry, hashing⟩ : Service).create container items) s = (.ok created, s'))
    (hitem : item ∈ items) (hn : expirySeconds? source (item.get? source) = .ok (some n)) :
    ∃ p filed, schema.prepare item = .ok p ∧ FiledAs m container s' p filed ∧
      (filed.get? Reserved.ttl = some (.int n) ↔ schema.StoresExpiry item n) ∧
      (schema.aliases.storedName Reserved.ttl = Reserved.ttl →
        (∀ name v, item.get? name = some v → schema.aliases.storedName name = Reserved.ttl →
          name = Reserved.ttl) → filed.get? Reserved.ttl = some (.int n)) := by
  obtain ⟨p, filed, hprepare, hfiled⟩ := exists_filedAs_of_create hget h hitem
  have hstores : filed.get? Reserved.ttl = some (.int n) ↔ schema.StoresExpiry item n := by
    obtain ⟨_, k, -, -, rfl⟩ := hfiled
    rw [Item.get?_stamped (by decide), Schema.eq_of_prepare hexpiry hn hprepare,
      Schema.storesExpiry_iff]
  refine ⟨p, filed, hprepare, hfiled, hstores, fun hown hfree => ?_⟩
  exact hstores.2 (Schema.storesExpiry_of_unclaimed hown hfree n)

/-- A container whose items expire at the date in `expiresAt`, with one attribute renamed. -/
def leases (name stored : String) : Schema :=
  ({ container := "leases", partitionKeyPath := "/pk" } : Schema).withAlias name stored
    |>.withExpiry "expiresAt"

def leasesService (name stored : String) : Service :=
  { backend := Memory.backend {}, registry := .ofList [leases name stored] }

/-- An item that expires at the start of the year 2030. -/
def lease : Item :=
  .ofList [("id", .str "a"), ("pk", .str "p"), ("owner", .str "x"),
    ("expiresAt", .str "2030-01-01T00:00:00Z")]

theorem expirySeconds?_lease :
    expirySeconds? "expiresAt" (lease.get? "expiresAt") = .ok (some 1893456000) := by
  rfl

/-- A lease whose owner is stored as its holder expires under `ttl`. -/
theorem exists_expiry_of_holder : ∃ p filed s',
    FiledAs {} "leases" s' p filed ∧ filed.get? Reserved.ttl = some (.int 1893456000) := by
  have hget : (leasesService "owner" "holder").registry.schemas.get? "leases" =
      some (leases "owner" "holder") := by
    rfl
  have hcreate :
      (outcome ((leasesService "owner" "holder").create "leases" [lease]) {}).1.isOk = true := by
    decide +kernel
  obtain ⟨created, s', hcreate⟩ := isOk_outcome_iff.1 hcreate
  obtain ⟨p, filed, -, hfiled, hstores, -⟩ :=
    exists_filed_expiry (m := {}) hget rfl hcreate List.mem_cons_self expirySeconds?_lease
  exact ⟨p, filed, s', hfiled, hstores.2 ⟨Reserved.ttl, by decide +kernel, .inl rfl⟩⟩

/-- Where the date itself is stored as `ttl` it takes the place of the expiry; where `ttl` is stored as
`lifetime`, nothing is stored as `ttl`. -/
theorem exists_expiry_lost :
    (∃ created s', outcome ((leasesService "expiresAt" "ttl").create "leases" [lease]) {} =
        (.ok created, s') ∧
      (s'.find? "leases" ⟨"p", "a"⟩).map (·.get? Reserved.ttl) =
        some (some (.str "2030-01-01T00:00:00Z"))) ∧
    (∃ created s', outcome ((leasesService "ttl" "lifetime").create "leases" [lease]) {} =
        (.ok created, s') ∧
      (s'.find? "leases" ⟨"p", "a"⟩).map (·.get? Reserved.ttl) = some none) ∧
    expirySeconds? "expiresAt" (lease.get? "expiresAt") = .ok (some 1893456000) := by
  have hcreate {name stored : String} (h : (outcome ((leasesService name stored).create "leases"
      [lease]) {}).1.isOk = true) {filed : Option (Option Json.Value)}
      (hfiled : ((outcome ((leasesService name stored).create "leases" [lease]) {}).2.find? "leases"
        ⟨"p", "a"⟩).map (·.get? Reserved.ttl) = filed) :
      ∃ created s', outcome ((leasesService name stored).create "leases" [lease]) {} =
          (.ok created, s') ∧
        (s'.find? "leases" ⟨"p", "a"⟩).map (·.get? Reserved.ttl) = filed := by
    obtain ⟨created, s', h⟩ := isOk_outcome_iff.1 h
    rw [h] at hfiled
    exact ⟨created, s', h, hfiled⟩
  exact ⟨hcreate (by decide +kernel) (by decide +kernel),
    hcreate (by decide +kernel) (by decide +kernel), expirySeconds?_lease⟩

end Service
end DocumentStore
