import DocumentStore.Proofs.Service.Reachable
import DocumentStore.Proofs.Service.Revision

/-! Items marked as deleted, and marks taken back.

A mark sets `isDeleted` and, where a delay is given, the purge with it; what an item holds under other
names stays (`Item.IsMarked`). A later mark replaces an earlier one (`Item.IsMarked.trans`), so marking
items one after the other comes to the same for those that are listed again
(`Service.exists_outcome_mark`). -/
namespace DocumentStore
open DocumentStore.Action

variable {m : Memory} {registry : Registry} {hashing : HashOrder} {container partition : String}
  {schema : Schema} {ids ids' : List String} {deleted deleted' : Bool} {delay : Option PurgeDelay} {s s₁ s' : Store}

/-! ### Single items -/

namespace Item
variable {old mid new : Item} {id : String}

/-- The second item is the first with the mark set, and with the purge set or dropped where a delay is
given. Apart from system fields it holds under other names what the first holds. -/
structure IsMarked (deleted : Bool) (delay : Option PurgeDelay) (old new : Item) : Prop where
  mark : new.get? Reserved.isDeleted = some (.bool deleted)
  purge : ∀ d, delay = some d →
    new.get? Reserved.ttl = if deleted then some (.int d.seconds) else none
  others : ∀ name, name ∉ Reserved.systemFields → name ≠ Reserved.isDeleted →
    (delay.isSome → name ≠ Reserved.ttl) → new.get? name = old.get? name

/-- The item carries the stamp of the `n`th write, or of one behind it. -/
def StampedSince (m : Memory) (container : String) (n : Nat) (item : Item) : Prop :=
  ∃ k, n ≤ k ∧ ∃ base : Item, item = base.stamped (m.stamp k) container

theorem StampedSince.of_le {n n' : Nat} (h : new.StampedSince m container n') (hle : n ≤ n') :
    new.StampedSince m container n := by
  obtain ⟨k, hk, hbase⟩ := h
  exact ⟨k, Nat.le_trans hle hk, hbase⟩

/-- A later mark replaces an earlier one. -/
theorem IsMarked.trans (h : old.IsMarked deleted delay mid) (h' : mid.IsMarked deleted' delay new) :
    old.IsMarked deleted' delay new where
  mark := h'.mark
  purge := h'.purge
  others name hsystem hmark hpurge := by
    rw [h'.others name hsystem hmark hpurge, h.others name hsystem hmark hpurge]

/-- The same mark set again changes nothing that callers see. -/
theorem IsMarked.withoutSystemFields_eq (h : old.IsMarked deleted delay mid)
    (h' : mid.IsMarked deleted delay new) : mid.withoutSystemFields = new.withoutSystemFields := by
  apply withoutSystemFields_congr
  intro name hsystem
  by_cases hmark : name = Reserved.isDeleted
  · rw [hmark, h.mark, h'.mark]
  · by_cases hpurge : delay.isSome ∧ name = Reserved.ttl
    · obtain ⟨d, hd⟩ := Option.isSome_iff_exists.1 hpurge.1
      rw [hpurge.2, h.purge d hd, h'.purge d hd]
    · exact (h'.others name hsystem hmark fun hdelay hname => hpurge ⟨hdelay, hname⟩).symm

theorem IsMarked.isDeleted_eq (h : old.IsMarked deleted delay new) : new.isDeleted = deleted := by
  rw [isDeleted, h.mark]
  cases deleted <;> rfl

theorem isMarked_marked (item : Item) : item.IsMarked deleted delay (item.marked deleted delay) where
  mark := by
    unfold marked
    rw [get?_withoutSystemFields (by decide)]
    cases delay <;> cases deleted <;> simp [Reserved.isDeleted, Reserved.ttl]
  purge d hd := by
    subst hd
    unfold marked
    rw [get?_withoutSystemFields (by decide)]
    cases deleted <;> simp
  others name hsystem hmark hpurge := get?_marked hsystem hmark hpurge

/-- Marking an item in its place keeps its id, as the place is that of the id. -/
theorem isMarked_refiled (hid : old.id? = some id) (s : Store) :
    old.IsMarked deleted delay (Service.refiled m s container id (old.marked deleted delay)) := by
  have h : old.IsMarked deleted delay (old.marked deleted delay) := isMarked_marked old
  refine ⟨?_, fun d hd => ?_, fun name hsystem hmark hpurge => ?_⟩
  · rw [Service.get?_refiled (by decide), if_neg (by decide), h.mark]
  · rw [Service.get?_refiled (by decide), if_neg (by decide), h.purge d hd]
  · rw [Service.get?_refiled hsystem, h.others name hsystem hmark hpurge]
    by_cases hname : name = Reserved.id
    · rw [if_pos hname, hname, get?_id_iff.2 hid]
    · rw [if_neg hname]

end Item

/-! ### Several items -/

/-- The second store is the first with the items of a partition under some ids marked, all of which were
there, each stamped by the `n`th write or one behind it. All else is as it was. -/
structure Store.Marks (m : Memory) (container partition : String) (ids : List String) (deleted : Bool)
    (delay : Option PurgeDelay) (n : Nat) (s s' : Store) : Prop where
  listed : ∀ id ∈ ids, ∃ old new, s.find? container ⟨partition, id⟩ = some old ∧
    s'.find? container ⟨partition, id⟩ = some new ∧ old.IsMarked deleted delay new ∧
    new.StampedSince m container n
  others : ∀ other key, ¬(other = container ∧ key.partition = partition ∧ key.id ∈ ids) →
    s'.find? other key = s.find? other key

namespace Store.Marks
variable {n n' : Nat}

theorem refl (m : Memory) (container partition : String) (deleted : Bool) (delay : Option PurgeDelay)
    (n : Nat) (s : Store) : s.Marks m container partition [] deleted delay n s :=
  ⟨nofun, fun _ _ _ => rfl⟩

/-- Items that are marked last have the last mark, whatever was marked before. -/
theorem listed_of_last (h : s.Marks m container partition ids deleted delay n s₁)
    (h' : s₁.Marks m container partition ids' deleted' delay n' s') {id : String} (hid : id ∈ ids') :
    ∃ old new, s.find? container ⟨partition, id⟩ = some old ∧
      s'.find? container ⟨partition, id⟩ = some new ∧ old.IsMarked deleted' delay new ∧
      new.StampedSince m container n' := by
  obtain ⟨mid, new, hmid, hnew, hmarked', hstamped⟩ := h'.listed id hid
  by_cases hmem : id ∈ ids
  · obtain ⟨old, mid', hold, hmid', hmarked, -⟩ := h.listed id hmem
    obtain rfl := Option.some.inj (hmid'.symm.trans hmid)
    exact ⟨old, new, hold, hnew, hmarked.trans hmarked', hstamped⟩
  · rw [h.others container ⟨partition, id⟩ fun hkey => hmem hkey.2.2] at hmid
    exact ⟨mid, new, hmid, hnew, hmarked', hstamped⟩

/-- Items marked again have the later mark alone. -/
theorem again (h : s.Marks m container partition ids deleted delay n s₁)
    (h' : s₁.Marks m container partition ids deleted' delay n' s') :
    s.Marks m container partition ids deleted' delay n' s' where
  listed _ hid := listed_of_last h h' hid
  others other key hkey := by rw [h'.others other key hkey, h.others other key hkey]

theorem append (h : s.Marks m container partition ids deleted delay n s₁)
    (h' : s₁.Marks m container partition ids' deleted delay n' s') (hle : n ≤ n') :
    s.Marks m container partition (ids ++ ids') deleted delay n s' where
  listed id hid := by
    by_cases hmem : id ∈ ids'
    · obtain ⟨old, new, hold, hnew, hmarked, hstamped⟩ := listed_of_last h h' hmem
      exact ⟨old, new, hold, hnew, hmarked, hstamped.of_le hle⟩
    · obtain ⟨old, new, hold, hnew, hmarked, hstamped⟩ :=
        h.listed id ((List.mem_append.1 hid).resolve_right hmem)
      refine ⟨old, new, hold, ?_, hmarked, hstamped⟩
      rw [h'.others container ⟨partition, id⟩ fun hkey => hmem hkey.2.2, hnew]
  others other key hkey := by
    rw [h'.others other key, h.others other key]
    · exact fun hin => hkey ⟨hin.1, hin.2.1, List.mem_append_left _ hin.2.2⟩
    · exact fun hin => hkey ⟨hin.1, hin.2.1, List.mem_append_right _ hin.2.2⟩

/-- Where the items were there, so they are marked. -/
theorem isSome_find? (h : s.Marks m container partition ids deleted delay n s') {id : String}
    (hid : id ∈ ids) : (s'.find? container ⟨partition, id⟩).isSome = true := by
  obtain ⟨_, _, -, hnew, -⟩ := h.listed id hid
  rw [hnew]
  rfl

/-- What callers see of an item marked before is what they see of it after the same mark. -/
theorem exists_withoutSystemFields_eq (h : s.Marks m container partition ids deleted delay n s')
    {id : String} {old mid : Item} (hmarked : old.IsMarked deleted delay mid)
    (hmid : s.find? container ⟨partition, id⟩ = some mid) :
    ∃ stored, s'.find? container ⟨partition, id⟩ = some stored ∧
      mid.withoutSystemFields = stored.withoutSystemFields := by
  by_cases hmem : id ∈ ids
  · obtain ⟨mid', new, hmid', hnew, hmarked', -⟩ := h.listed id hmem
    obtain rfl := Option.some.inj (hmid.symm.trans hmid')
    exact ⟨new, hnew, hmarked.withoutSystemFields_eq hmarked'⟩
  · refine ⟨mid, ?_, rfl⟩
    rw [h.others container ⟨partition, id⟩ fun hkey => hmem hkey.2.2, hmid]

end Store.Marks

namespace Service

/-- The revision of an item that is there marks it, with the next stamp. -/
theorem exists_outcome_revise_marked (m : Memory) (registry : Registry) (deleted : Bool)
    (delay : Option PurgeDelay) (hs : Table.Sound s.find?) {id : String} {old : Item}
    (hold : s.find? container ⟨partition, id⟩ = some old) :
    ∃ new s', outcome ((⟨m.backend, registry, hashing⟩ : Service).revise container id partition
        (Item.marked deleted delay)) s = (.ok (old, new), s') ∧
      s.Marks m container partition [id] deleted delay s.writes s' ∧ s'.writes = s.writes + 1 ∧
      old.IsMarked deleted delay new ∧ s'.find? container ⟨partition, id⟩ = some new := by
  let new := refiled m s container id (old.marked deleted delay)
  have hmarked : old.IsMarked deleted delay new :=
    Item.isMarked_refiled (hs container ⟨partition, id⟩ old hold).id s
  have hfound : (s.put container ⟨partition, id⟩ new).find? container ⟨partition, id⟩ = some new := by
    rw [Store.find?_put, if_pos ⟨rfl, rfl⟩]
  refine ⟨new, _, ?_, ⟨fun id' hid' => ?_, fun other key hkey => ?_⟩, rfl, hmarked, hfound⟩
  · rw [outcome_revise, hold]
  · obtain rfl := List.mem_singleton.1 hid'
    exact ⟨old, new, hold, hfound, hmarked, s.writes, Nat.le_refl _, _, rfl⟩
  · rw [Store.find?_put, if_neg]
    rintro ⟨rfl, rfl⟩
    exact hkey ⟨rfl, rfl, List.mem_singleton_self id⟩

/-- Items that are there are all marked, one after the other. What a revision yields of an item is what
callers see of it in the end, even where a later one marks it again. -/
theorem exists_outcome_mapM_revise (m : Memory) (registry : Registry) (deleted : Bool)
    (delay : Option PurgeDelay) (hs : Table.Sound s.find?)
    (hthere : ∀ id ∈ ids, (s.find? container ⟨partition, id⟩).isSome = true) :
    ∃ revisions s', outcome (ids.mapM fun id => (⟨m.backend, registry, hashing⟩ : Service).revise container id
        partition (Item.marked deleted delay)) s = (.ok revisions, s') ∧
      s.Marks m container partition ids deleted delay s.writes s' ∧
      List.Forall₂ (fun id (revision : Item × Item) => ∃ stored,
        s'.find? container ⟨partition, id⟩ = some stored ∧
        revision.2.withoutSystemFields = stored.withoutSystemFields) ids revisions := by
  induction ids generalizing s with
  | nil => exact ⟨[], s, rfl, .refl .., .nil⟩
  | cons id rest ih =>
    obtain ⟨old, hold⟩ := Option.isSome_iff_exists.1 (hthere id List.mem_cons_self)
    obtain ⟨new, s₁, hfirst, hmarks, hwrites, hmarked, hnew⟩ :=
      exists_outcome_revise_marked m registry deleted delay hs hold
    have hsound : Table.Sound s₁.find? := by
      have hkept : Store.StaysSound s (outcome ((⟨m.backend, registry, hashing⟩ : Service).revise container id
          partition (Item.marked deleted delay)) s).2 := staysSound_revise _ _ _ _ s
      rw [hfirst] at hkept
      exact hkept hs
    have hleft : ∀ id' ∈ rest, (s₁.find? container ⟨partition, id'⟩).isSome = true := by
      intro id' hid'
      by_cases hsame : id' = id
      · rw [hsame, hnew]
        rfl
      · rw [hmarks.others container ⟨partition, id'⟩ fun hkey => hsame (List.mem_singleton.1 hkey.2.2)]
        exact hthere id' (List.mem_cons_of_mem id hid')
    obtain ⟨others, s', hrest, hmarks', hshown⟩ := ih hsound hleft
    refine ⟨(old, new) :: others, s', ?_, ?_, .cons ?_ hshown⟩
    · exact outcome_mapM_cons_eq_ok_iff.2 ⟨_, s₁, others, hfirst, hrest, rfl⟩
    · exact hmarks.append hmarks' (by omega)
    · exact hmarks'.exists_withoutSystemFields_eq hmarked hnew

/-- **Items that are there are marked, and no others; what comes out is what callers see of them in the
end, one for each that is listed.** -/
theorem exists_outcome_mark (m : Memory) (deleted : Bool) (delay : Option PurgeDelay)
    (hget : registry.schemas.get? container = some schema) (hs : Table.Sound s.find?) (hids : ids ≠ [])
    (hthere : ∀ id ∈ ids, (s.find? container ⟨partition, id⟩).isSome = true) :
    ∃ shown s', outcome ((⟨m.backend, registry, hashing⟩ : Service).mark container ids partition deleted
        delay) s = (.ok shown, s') ∧
      s.Marks m container partition ids deleted delay s.writes s' ∧
      List.Forall₂ (fun id item => ∃ stored, s'.find? container ⟨partition, id⟩ = some stored ∧
        item = schema.external hashing stored) ids shown := by
  have hinput : Checks.someInput .update ids = .ok () := by
    rw [Checks.someInput, List.isEmpty_eq_false_iff.2 hids]
    rfl
  have hschema : registry.resolve container .update = .ok schema := by rw [Registry.resolve, hget]
  obtain ⟨revisions, s', hrevisions, hmarks, hshown⟩ :=
    exists_outcome_mapM_revise m registry deleted delay hs hthere
  refine ⟨revisions.map fun revision => schema.external hashing revision.2, s', ?_, hmarks, ?_⟩
  · refine outcome_liftM_bind_eq_ok_iff.2 ⟨(), hinput, ?_⟩
    refine outcome_liftM_bind_eq_ok_iff.2 ⟨schema, hschema, ?_⟩
    exact outcome_bind_eq_ok_iff.2 ⟨revisions, s', hrevisions, rfl⟩
  · rw [List.forall₂_map_right_iff]
    refine hshown.imp fun id revision h => ?_
    obtain ⟨stored, hstored, hsame⟩ := h
    exact ⟨stored, hstored, congrArg (schema.aliases.externalItem hashing) hsame⟩

end Service
end DocumentStore
