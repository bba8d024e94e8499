import DocumentStore.Proofs.Aliases.Inversion
import DocumentStore.Proofs.Service.Reachable
import DocumentStore.Proofs.Service.ReadBack
import DocumentStore.Proofs.Service.Revision

/-! Updates as callers see them.

An update is renamed and put over the stored item, without system fields, and the result gets the id that
it is filed under. Callers see this through the way back. Where the table is one-to-one, and what is stored
keeps to stored names and what is set to external ones, they see the old item with the changes put over it
(`Schema.external_refiled`), and the rest of the store as it was (`Service.outcome_update_merges`). -/
namespace DocumentStore
open DocumentStore.Action

variable {m : Memory} {registry : Registry} {hashing : HashOrder} {container id partition : String}
  {schema : Schema} {s s' : Store} {old updates item : Item} {name : String}

/-! ### Names under the way back -/

/-- A shown item has under an external name what the item has under the stored one. -/
theorem Aliases.OneToOne.get?_externalItem {a : Aliases} (h : a.OneToOne) (hitem : a.KeepsToStored item)
    (hname : ¬OnlyNew a.toStored name) :
    (a.externalItem hashing item).get? name = item.get? (a.storedName name) := by
  rw [← h.get?_storedItem (h.keepsToExternal_externalItem item) hname, h.storedItem_externalItem hitem]

theorem Aliases.AvoidsSystemFields.storedName_mem_iff {a : Aliases} (h : a.AvoidsSystemFields) :
    a.storedName name ∈ Reserved.systemFields ↔ name ∈ Reserved.systemFields := by
  unfold storedName rename
  cases hstored : a.toStored.get? name with
  | none => rfl
  | some stored =>
    obtain ⟨hname, hnew⟩ := h name stored hstored
    simp [hname, hnew]

theorem Item.keepsToStored_withoutSystemFields {a : Aliases} (h : a.KeepsToStored item) :
    a.KeepsToStored item.withoutSystemFields := by
  intro name hname
  by_cases hsystem : name ∈ Reserved.systemFields
  · exact get?_withoutSystemFields_of_mem hsystem
  · rw [get?_withoutSystemFields hsystem, h name hname]

namespace Schema

/-- What callers see under a name is what is stored under its stored name, if they may see it. -/
theorem get?_external (h : schema.aliases.OneToOne) (hsystem : schema.aliases.AvoidsSystemFields)
    (hitem : schema.aliases.KeepsToStored item) (hname : ¬Aliases.OnlyNew schema.aliases.toStored name) :
    (schema.external hashing item).get? name =
      if name ∈ Reserved.systemFields then none else item.get? (schema.aliases.storedName name) := by
  rw [external, h.get?_externalItem (Item.keepsToStored_withoutSystemFields hitem) hname]
  split
  · next hmem => exact Item.get?_withoutSystemFields_of_mem (hsystem.storedName_mem_iff.2 hmem)
  · next hmem => exact Item.get?_withoutSystemFields (hsystem.storedName_mem_iff.not.2 hmem)

/-- What an update changes, as callers name it: all that it sets but system fields and the attribute that
is stored as the id. -/
def changes (schema : Schema) (updates : Item) : Item :=
  updates.withoutSystemFields.filter fun name _ => schema.aliases.storedName name != Reserved.id

theorem get?_changes (schema : Schema) (updates : Item) (name : String) :
    (schema.changes updates).get? name =
      if name ∈ Reserved.systemFields ∨ schema.aliases.storedName name = Reserved.id then none
      else updates.get? name := by
  rw [changes, OrderedMap.get?_filter fun name => schema.aliases.storedName name != Reserved.id]
  by_cases hsystem : name ∈ Reserved.systemFields
  · simp [hsystem, Item.get?_withoutSystemFields_of_mem]
  · by_cases hid : schema.aliases.storedName name = Reserved.id
    · simp [hid]
    · simp [hsystem, hid, Item.get?_withoutSystemFields]

section Refiled
variable (hsystem : schema.aliases.AvoidsSystemFields) (hid : old.id? = some id)
  (hold : schema.aliases.KeepsToStored old)
include hsystem hid hold

/-- An updated item keeps to stored names. Its id is no name that is only external, as the item had it
before. -/
theorem keepsToStored_refiled : schema.aliases.KeepsToStored
    (Service.refiled m s container id (Item.revised schema.aliases updates old)) := by
  intro name hname
  obtain ⟨stored, hstored⟩ := hname.1
  have hmem : name ∉ Reserved.systemFields := (hsystem name stored hstored).1
  have hset : (schema.aliases.storedItem updates).get? name = none :=
    schema.aliases.keepsToStored_storedItem updates name hname
  have hkey : name ≠ Reserved.id := by
    rintro rfl
    rw [← Item.get?_id_iff, hold _ hname] at hid
    cases hid
  rw [Service.get?_refiled hmem, if_neg hkey, Item.get?_revised hmem, hset, hold name hname]
  rfl

/-- Callers see an updated item as the old one with the changes put over it. -/
theorem external_refiled (h : schema.aliases.OneToOne) (hupdates : schema.aliases.KeepsToExternal updates) :
    schema.external hashing (Service.refiled m s container id (Item.revised schema.aliases updates old)) =
      (schema.external hashing old).overlaid (schema.changes updates) := by
  apply OrderedMap.ext_get?
  intro name
  rw [Item.get?_overlaid, get?_changes]
  by_cases hname : Aliases.OnlyNew schema.aliases.toStored name
  · -- Nobody has anything under a name that is only a stored one.
    rw [external, external, h.keepsToExternal_externalItem _ name hname,
      h.keepsToExternal_externalItem _ name hname, hupdates name hname, ite_self]
    rfl
  · rw [get?_external h hsystem (keepsToStored_refiled hsystem hid hold) hname,
      get?_external h hsystem hold hname]
    by_cases hmem : name ∈ Reserved.systemFields
    · simp [hmem]
    · have hstored := hsystem.storedName_mem_iff.not.2 hmem
      rw [Service.get?_refiled hstored, Item.get?_revised hstored, h.get?_storedItem hupdates hname]
      by_cases hkey : schema.aliases.storedName name = Reserved.id
      · simp [hmem, hkey, Item.get?_id_iff.2 hid]
      · simp [hmem, hkey]

end Refiled
end Schema

/-! ### Updates -/

namespace Service

/-- An update of an item that is there files the revised item, and reports what callers see of the item
before and after. -/
theorem outcome_update (hid : Checks.id id = .ok ()) (hget : registry.schemas.get? container = some schema)
    (hold : s.find? container ⟨partition, id⟩ = some old) (updates : Item) (returned : ReturnValue) :
    let new := refiled m s container id (Item.revised schema.aliases updates old)
    outcome ((⟨m.backend, registry, hashing⟩ : Service).update container id partition updates returned) s =
      (.ok (returned.report (schema.external hashing old) (schema.external hashing new)),
        s.put container ⟨partition, id⟩ new) := by
  have hschema : (⟨m.backend, registry, hashing⟩ : Service).schema container .update = .ok schema :=
    Registry.resolve_eq_ok_iff.2 hget
  apply outcome_liftM_bind_eq_ok_iff.2
  refine ⟨(), hid, outcome_liftM_bind_eq_ok_iff.2 ⟨schema, hschema, outcome_bind_eq_ok_iff.2 ?_⟩⟩
  rw [outcome_revise, hold]
  exact ⟨_, _, rfl, rfl⟩

theorem checkId_of_outcome_update {returned : ReturnValue} {answer : Update}
    (h : outcome ((⟨m.backend, registry, hashing⟩ : Service).update container id partition updates returned) s =
      (.ok answer, s')) : Checks.id id = .ok () := by
  obtain ⟨_, hid, -⟩ := outcome_liftM_bind_eq_ok_iff.1 h
  exact hid

/-- **An update is a merge as callers see it.** What they see of the item afterwards is what they saw of it
before, with the updates put over it that are no system field and not stored as the id, in whatever call they
see it. So what is not updated stays, and so does every other item. The update reports what they see, as far
as it was asked to, and it comes out for every item that is there and has an id that is not blank. -/
theorem outcome_update_merges (hget : registry.schemas.get? container = some schema)
    (honeToOne : schema.aliases.OneToOne) (hsystem : schema.aliases.AvoidsSystemFields)
    (hs : s.Reachable) (hold : s.find? container ⟨partition, id⟩ = some old)
    (hstored : schema.aliases.KeepsToStored old) (hupdates : schema.aliases.KeepsToExternal updates)
    (m : Memory) (returned : ReturnValue) (hashing viewing : HashOrder) :
    (Checks.id id = .ok () → ∃ answer s',
      outcome ((⟨m.backend, registry, hashing⟩ : Service).update container id partition updates returned) s =
        (.ok answer, s')) ∧
    ∀ answer s',
      outcome ((⟨m.backend, registry, hashing⟩ : Service).update container id partition updates returned) s =
        (.ok answer, s') →
      ∃ new, s'.find? container ⟨partition, id⟩ = some new ∧
        schema.external viewing new = (schema.external viewing old).overlaid (schema.changes updates) ∧
        (∀ name, updates.get? name = none →
          (schema.external viewing new).get? name = (schema.external viewing old).get? name) ∧
        (∀ other key, ¬(other = container ∧ key = ⟨partition, id⟩) →
          s'.find? other key = s.find? other key) ∧
        answer = returned.report (schema.external viewing old) (schema.external viewing new) := by
  have hdraws : schema.DrawsAlike viewing hashing := .inr honeToOne
  rw [← hdraws.external_eq]
  refine ⟨fun hid => ⟨_, _, outcome_update hid hget hold updates returned⟩, fun answer s' h => ?_⟩
  have hid := (hs.sound container ⟨partition, id⟩ old hold).id
  have hmerged : schema.external hashing (refiled m s container id (Item.revised schema.aliases updates old)) =
      (schema.external hashing old).overlaid (schema.changes updates) :=
    Schema.external_refiled hsystem hid hstored honeToOne hupdates
  have hout : outcome ((⟨m.backend, registry, hashing⟩ : Service).update container id partition updates
      returned) s = _ := outcome_update (checkId_of_outcome_update h) hget hold updates returned
  obtain ⟨hanswer, rfl⟩ := Prod.mk.inj (h.symm.trans hout)
  refine ⟨_, ?_, hmerged, fun name hname => ?_, fun other key hother => ?_, Except.ok.inj hanswer⟩
  · rw [Store.find?_put, if_pos ⟨rfl, rfl⟩]
  · rw [hmerged, Item.get?_overlaid, Schema.get?_changes, hname, ite_self, Option.none_or]
  · rw [Store.find?_put, if_neg hother]

/-- What a service holds once it has created two timers. -/
def timersStore : Store :=
  (outcome (Request.run timersService (.create "timers" [firstTimer, secondTimer])) {}).2

/-- Updates of a timer: of the attribute that is stored as the id, of what callers call `id`, of another one
and of a system field. -/
def timerUpdates : Item :=
  .ofList [("timerId", .str "x"), ("id", .str "t9"), ("minutes", .int 3), ("_ts", .int 0)]

/-- The attribute that is stored as the id keeps its value, and so does a system field. What callers call
`id` is an attribute like others. -/
theorem exists_update_merged : ∃ answer s',
    outcome (timersService.update "timers" "t1" "u" timerUpdates .allNew) timersStore = (.ok answer, s') ∧
    answer.new = some (.ofList [("timerId", .str "t1"), ("id", .str "t9"), ("minutes", .int 3),
      ("userId", .str "u")]) ∧
    s'.find? "timers" ⟨"u", "t2"⟩ = timersStore.find? "timers" ⟨"u", "t2"⟩ := by
  have hreached : timersStore.Reachable := .request {} timersService.registry _ .empty
  obtain ⟨old, hold⟩ : ∃ old, timersStore.find? "timers" ⟨"u", "t1"⟩ = some old :=
    Option.isSome_iff_exists.1 (by decide +kernel)
  have hstored : ∀ old ∈ timersStore.find? "timers" ⟨"u", "t1"⟩, timers.aliases.KeepsToStored old := by
    decide +kernel
  have hseen : (timersStore.find? "timers" ⟨"u", "t1"⟩).map (timers.external .byKey) = some firstTimer := by rfl
  rw [hold] at hseen
  have hget : timersService.registry.schemas.get? "timers" = some timers := by decide +kernel
  have hupdates : timers.aliases.KeepsToExternal timerUpdates := by decide +kernel
  obtain ⟨hok, hmerges⟩ := outcome_update_merges hget (by decide +kernel) (by decide +kernel) hreached hold
    (hstored old hold) hupdates {} .allNew .byKey .byKey
  obtain ⟨answer, s', h⟩ := hok (by decide +kernel)
  obtain ⟨new, -, hnew, -, hothers, rfl⟩ := hmerges answer s' h
  refine ⟨_, s', h, ?_, hothers "timers" ⟨"u", "t2"⟩ (by decide)⟩
  rw [hnew, Option.some.inj hseen]
  rfl

end Service
end DocumentStore
