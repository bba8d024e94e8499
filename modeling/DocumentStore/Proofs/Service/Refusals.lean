import DocumentStore.Proofs.Service.DeletionByValue
import DocumentStore.Proofs.Service.Requests
import DocumentStore.Proofs.Store.KeyRows

/-! Refusals: errors about what a request asks, and what they leave behind.

Most requests are checked before anything is written, and what writes behind the checks fails with
errors of the backend alone. A deletion by value is the exception: it reads the partition of an item
off the row that it found, with the value itself to fall back on, and refuses a row without either when
others may be deleted already. `run_eq_or_unplaced` says that no other refusal changes the store. -/
namespace DocumentStore
open DocumentStore.Action
open Json (Value)

/-- The error is about what the request asks, and not about what the backend met. -/
def Error.IsRefusal : Error → Prop
  | .validation _ | .configuration _ | .duplicateKey _ | .argument _ => True
  | _ => False

/-- The row is that of an item that the query finds in a container. -/
def Store.Yields (s : Store) (container : String) (q : Query) (row : Item) : Prop :=
  ∃ key item, s.find? container key = some item ∧ kept q.filter item = true ∧
    item.project q.projection = row

theorem Store.Includes.yields {s s' : Store} (h : s.Includes s') {container : String} {q : Query}
    {row : Item} (hrow : s'.Yields container q row) : s.Yields container q row := by
  obtain ⟨key, item, hitem, hkept⟩ := hrow
  exact ⟨key, item, h container key item hitem, hkept⟩

/-- The request is a deletion by a value that names no partition, and finds an item whose row names
none either. -/
def Request.Unplaced (registry : Registry) (s : Store) : Request → Prop
  | deleteByKeyValue containers key value _ =>
    Item.keyText? value = none ∧ ∃ container ∈ containers, ∃ schema q row,
      registry.schemas.get? container = some schema ∧ Query.keyMatch schema key value = .ok q ∧
      s.Yields schema.container q row ∧
      (row.get? Query.partitionField).bind Item.keyText? = none
  | _ => False

instance : IsPreorder Store Eq where
  refl _ := rfl
  trans _ _ _ := Eq.trans

namespace Service

variable {m : Memory} {registry : Registry} {hashing : HashOrder} {s s' : Store} {e : Error}

/-! ### Requests that are checked first -/

theorem failsWith_create (container partition : String) (item : Item) :
    FailsWith (fun e => ¬e.IsRefusal) (m.backend.create container partition item) := by
  refine failsWith_ofChange fun s e h => ?_
  unfold Store.create at h
  split at h
  · cases h
    exact not_false
  · split at h
    · cases h
      exact not_false
    · cases h

theorem failsWith_revise (container id partition : String) (revision : Item → Item) :
    FailsWith (fun e => ¬e.IsRefusal)
      ((⟨m.backend, registry, hashing⟩ : Service).revise container id partition revision) := by
  intro s s' e h
  rw [outcome_revise] at h
  split at h
  · cases h
    exact not_false
  · cases h

theorem unchangedOn_create (container : String) (items : List Item) :
    UnchangedOn Error.IsRefusal ((⟨m.backend, registry, hashing⟩ : Service).create container items) :=
  unchangedOn_liftM_bind fun _ _ => unchangedOn_liftM_bind fun _ _ => unchangedOn_liftM_bind fun _ _ =>
    unchangedOn_of_failsWith <|
      failsWith_bind (failsWith_mapM fun _ _ => failsWith_create _ _ _) fun _ => failsWith_pure _

theorem unchangedOn_deleteByIds (container partition : String) (ids : List String) :
    UnchangedOn Error.IsRefusal
      ((⟨m.backend, registry, hashing⟩ : Service).deleteByIds container partition ids) := by
  refine unchangedOn_liftM_bind fun _ _ => unchangedOn_liftM_bind fun _ _ =>
    unchangedOn_of_failsWith (failsWith_bind (failsWith_mapM fun id _ => ?_) fun _ => failsWith_pure _)
  intro s s' e h
  obtain ⟨_, rfl⟩ := failsWith_attempt _ s s' e h
  exact not_false

theorem unchangedOn_mark (container : String) (ids : List String) (partition : String)
    (deleted : Bool) (delay : Option PurgeDelay) :
    UnchangedOn Error.IsRefusal
      ((⟨m.backend, registry, hashing⟩ : Service).mark container ids partition deleted delay) :=
  unchangedOn_liftM_bind fun _ _ => unchangedOn_liftM_bind fun _ _ =>
    unchangedOn_of_failsWith <|
      failsWith_bind (failsWith_mapM fun _ _ => failsWith_revise _ _ _ _) fun _ => failsWith_pure _

theorem unchangedOn_update (container id partition : String) (updates : Item)
    (returned : ReturnValue) :
    UnchangedOn Error.IsRefusal
      ((⟨m.backend, registry, hashing⟩ : Service).update container id partition updates returned) :=
  unchangedOn_liftM_bind fun _ _ => unchangedOn_liftM_bind fun _ _ =>
    unchangedOn_of_failsWith <|
      failsWith_bind (failsWith_revise _ _ _ _) fun _ => failsWith_pure _

/-! ### Deletions by value -/

/-- The row names no partition, and the error says so of its item. -/
def RefusesRow (container : String) (row : Item) (e : Error) : Prop :=
  (row.get? Query.partitionField).bind Item.keyText? = none ∧
    ∃ id, e = .validation (.unknownPartition id container)

theorem refusesRow_of_matchedKey {container : String} {fallback : Option String} {row : Item}
    (h : matchedKey container fallback row = .error e) (he : e.IsRefusal) :
    fallback = none ∧ RefusesRow container row e := by
  unfold matchedKey at h
  split at h
  · cases h
    exact he.elim
  · next id hid =>
    split at h
    · cases h
    · next hnone =>
      cases h
      obtain ⟨hrow, hfallback⟩ := Option.or_eq_none_iff.1 hnone
      exact ⟨hfallback, hrow, id, rfl⟩

theorem failsWith_deletePage (container : String) (fallback : Option String) (chunk : Nat)
    (rows : List Item) :
    FailsWith (fun e => e.IsRefusal → fallback = none ∧ ∃ row ∈ rows, RefusesRow container row e)
      ((⟨m.backend, registry, hashing⟩ : Service).deletePage container fallback chunk rows) := by
  refine failsWith_forM fun part hpart => failsWith_liftM_bind (fun e herror he => ?_) fun keys _ =>
    failsWith_forM fun key _ => failsWith_discard (failsWith_ofChange fun s e h he => ?_)
  · obtain ⟨row, hrow, hkey⟩ := Result.exists_of_mapM_eq_error herror
    obtain ⟨hfallback, hrefuses⟩ := refusesRow_of_matchedKey hkey he
    refine ⟨hfallback, row, ?_, hrefuses⟩
    rw [← flatten_chunks chunk rows]
    exact List.mem_flatten_of_mem hpart hrow
  · unfold Store.delete at h
    split at h
    · cases h
      exact he.elim
    · cases h

/-- Rounds that are refused are so for a row that was to be found to begin with. -/
theorem refusesRow_of_deleteRounds {container : String} {q : Query} {fallback : Option String}
    {ask : Action Page} {remove : List Item → Action Unit}
    (hask : ∀ s, ∃ page, outcome ask s = (.ok page, s) ∧ ∀ row ∈ page.items, s.Yields container q row)
    (hmoves : ∀ rows, Moves Store.Includes (remove rows))
    (hfails : ∀ rows, FailsWith (fun e => e.IsRefusal → fallback = none ∧ ∃ row ∈ rows,
      RefusesRow container row e) (remove rows)) {most : Nat}
    (h : outcome (deleteRounds ask remove most) s = (.error e, s')) (he : e.IsRefusal) :
    fallback = none ∧ ∃ row, s.Yields container q row ∧ RefusesRow container row e := by
  induction most generalizing s with
  | zero => cases h
  | succ most ih =>
    obtain ⟨page, hpage, hrows⟩ := hask s
    rw [outcome_deleteRounds_succ hpage] at h
    split at h
    · cases h
    · obtain hremove | ⟨_, s₁, hremove, hrest⟩ := outcome_bind_eq_error_iff.1 h
      · obtain ⟨hfallback, row, hrow, hrefuses⟩ := hfails _ _ _ _ hremove he
        exact ⟨hfallback, row, hrows row hrow, hrefuses⟩
      · have hincludes := hmoves page.items s
        rw [hremove] at hincludes
        obtain ⟨hfallback, row, hrow, hrefuses⟩ := ih hrest
        exact ⟨hfallback, row, hincludes.yields hrow, hrefuses⟩

/-- A match by key value is answered with rows of what it finds. -/
theorem yields_of_query {schema : Schema} {key : String} {value : Value} {q : Query}
    (hmatch : Query.keyMatch schema key value = .ok q) (container : String) (batch : UInt64) (s : Store) :
    ∃ page, outcome (m.backend.query container { q with pageSize := some batch } none) s =
      (.ok page, s) ∧ ∀ row ∈ page.items, s.Yields container q row := by
  obtain ⟨page, hpage, hitems⟩ := m.exists_outcome_query hmatch container batch s
  refine ⟨page, hpage, fun row hrow => ?_⟩
  rw [hitems] at hrow
  obtain ⟨entry, hentry, rfl⟩ := List.mem_map.1 hrow
  obtain ⟨hfound, hkept⟩ := Store.find?_of_mem_keptEntries (List.mem_of_mem_take hentry)
  exact ⟨entry.1, entry.2, hfound, hkept, rfl⟩

theorem refusesRow_of_deleteMatching {schema : Schema} {key : String} {value : Value} {batch : UInt64}
    {q : Query} (hmatch : Query.keyMatch schema key value = .ok q)
    (h : outcome ((⟨m.backend, registry, hashing⟩ : Service).deleteMatching schema key value batch) s =
      (.error e, s')) (he : e.IsRefusal) :
    Item.keyText? value = none ∧ ∃ row, s.Yields schema.container q row ∧
      RefusesRow schema.container row e := by
  unfold deleteMatching at h
  rw [hmatch] at h
  exact refusesRow_of_deleteRounds (yields_of_query hmatch schema.container batch)
    (fun _ => moves_deletePage _ _ _ _) (fun _ => failsWith_deletePage _ _ _ _) h he

/-- Deletions by a value that can be read are refused for a row that was to be found to begin with. -/
theorem refusesRow_of_forM_deleteMatching {schemas : List Schema} {key : String} {value : Value}
    {batch : UInt64} {operand : Term} (hvalue : Term.ofValue value = .ok operand)
    (h : outcome (schemas.forM fun schema =>
      (⟨m.backend, registry, hashing⟩ : Service).deleteMatching schema key value batch) s = (.error e, s'))
    (he : e.IsRefusal) :
    Item.keyText? value = none ∧ ∃ schema ∈ schemas, ∃ q row,
      Query.keyMatch schema key value = .ok q ∧ s.Yields schema.container q row ∧
        RefusesRow schema.container row e := by
  induction schemas generalizing s with
  | nil => cases h
  | cons schema rest ih =>
    obtain hfirst | ⟨s₁, hfirst, hrest⟩ := outcome_forM_cons_eq_error_iff.1 h
    · obtain ⟨q, hmatch⟩ := Query.exists_keyMatch hvalue schema key
      obtain ⟨hnone, row, hrow, hrefuses⟩ := refusesRow_of_deleteMatching hmatch hfirst he
      exact ⟨hnone, schema, List.mem_cons_self, q, row, hmatch, hrow, hrefuses⟩
    · have hmoves : Moves Store.Includes
          ((⟨m.backend, registry, hashing⟩ : Service).deleteMatching schema key value batch) :=
        moves_deleteMatching schema key value batch
      have hincludes := hmoves s
      rw [hfirst] at hincludes
      obtain ⟨hnone, schema', hschema', q, row, hmatch, hrow, hrefuses⟩ := ih hrest
      exact ⟨hnone, schema', List.mem_cons_of_mem schema hschema', q, row, hmatch,
        hincludes.yields hrow, hrefuses⟩

/-- Deletions by a value that cannot be read are over before they begin. -/
theorem eq_of_forM_deleteMatching {schemas : List Schema} {key : String} {value : Value}
    {batch : UInt64} {e' : Error} (hvalue : Term.ofValue value = .error e')
    (h : outcome (schemas.forM fun schema =>
      (⟨m.backend, registry, hashing⟩ : Service).deleteMatching schema key value batch) s = (.error e, s')) :
    s' = s := by
  cases schemas with
  | nil => cases h
  | cons schema rest =>
    have hmatch : Query.keyMatch schema key value = .error e' := by
      unfold Query.keyMatch
      rw [hvalue]
      rfl
    have hfirst : outcome ((⟨m.backend, registry, hashing⟩ : Service).deleteMatching schema key value batch) s =
        (.error e', s) := by
      unfold deleteMatching
      rw [hmatch]
      rfl
    obtain hfirst' | ⟨s₁, hfirst', -⟩ := outcome_forM_cons_eq_error_iff.1 h
    · exact (Prod.mk.inj (hfirst'.symm.trans hfirst)).2
    · cases hfirst.symm.trans hfirst'

theorem deleteByKeyValue_eq_or_unplaced {containers : List String} {key : String} {value : Value}
    {batch : UInt64}
    (h : outcome ((⟨m.backend, registry, hashing⟩ : Service).deleteByKeyValue containers key value batch) s =
      (.error e, s')) (he : e.IsRefusal) :
    s' = s ∨ (Request.deleteByKeyValue containers key value batch).Unplaced registry s ∧
      ∃ id container, e = .validation (.unknownPartition id container) := by
  obtain hcheck | ⟨_, _, hcheck, h⟩ := outcome_bind_eq_error_iff.1 h
  · exact .inl (Prod.mk.inj hcheck).2.symm
  · obtain ⟨-, rfl⟩ := Prod.mk.inj hcheck
    obtain hcheck | ⟨schemas, _, hcheck, h⟩ := outcome_bind_eq_error_iff.1 h
    · exact .inl (Prod.mk.inj hcheck).2.symm
    · obtain ⟨hschemas, rfl⟩ := Prod.mk.inj hcheck
      cases hvalue : Term.ofValue value with
      | error e' => exact .inl (eq_of_forM_deleteMatching hvalue h)
      | ok operand =>
        obtain ⟨hnone, schema, hschema, q, row, hmatch, hrow, hpartition, id, hid⟩ :=
          refusesRow_of_forM_deleteMatching hvalue h he
        obtain ⟨container, hcontainer, hget⟩ :=
          exists_of_mem_forall₂ (Result.mapM_eq_ok_iff.1 hschemas).flip hschema
        refine .inr ⟨⟨hnone, container, hcontainer, schema, q, row, ?_, hmatch, hrow, hpartition⟩,
          id, schema.container, hid⟩
        exact Registry.resolve_eq_ok_iff.1 hget

/-! ### All requests -/

/-- **A request that is refused has changed nothing: where it ends with an error about what it asks, the
store is as it was. The one exception is a deletion by a value that names no partition, when it finds an
item whose row names none either.** -/
theorem run_eq_or_unplaced {request : Request}
    (h : outcome (request.run ⟨m.backend, registry, hashing⟩) s = (.error e, s')) (he : e.IsRefusal) :
    s' = s ∨ request.Unplaced registry s ∧
      ∃ id container, e = .validation (.unknownPartition id container) := by
  cases request with
  | deleteByKeyValue containers key value batch => exact deleteByKeyValue_eq_or_unplaced h he
  | create container items =>
    exact .inl (unchangedOn_discard (unchangedOn_create container items) _ _ _ h he)
  | findByIds container ids partition =>
    exact .inl (unchangedOn_of_moves_eq (moves_discard (moves_findByIds container ids partition))
      _ _ _ h he)
  | find container partition criteria options =>
    exact .inl (unchangedOn_of_moves_eq (moves_discard (moves_find container partition criteria options))
      _ _ _ h he)
  | count container partition criteria =>
    exact .inl (unchangedOn_of_moves_eq (moves_discard (moves_count container partition criteria))
      _ _ _ h he)
  | deleteByIds container partition ids =>
    exact .inl (unchangedOn_discard (unchangedOn_deleteByIds container partition ids) _ _ _ h he)
  | softDelete container ids partition delay =>
    exact .inl (unchangedOn_discard (unchangedOn_mark container ids partition true delay) _ _ _ h he)
  | undelete container ids partition delay =>
    exact .inl (unchangedOn_discard (unchangedOn_mark container ids partition false delay) _ _ _ h he)
  | update container id partition updates returned =>
    exact .inl (unchangedOn_discard (unchangedOn_update container id partition updates returned)
      _ _ _ h he)
  | cloneByKeyValue =>
    cases h
    exact he.elim

theorem exists_deleteByKeyValue_refused : ∃ s',
    outcome ((Request.deleteByKeyValue ["items", "notes"] "done" (.bool true) 0).run itemsService)
      doneAndDeleted = (.error (.configuration (.unknownContainer "notes" .delete)), s') ∧
    s' = doneAndDeleted := by
  have h : (outcome ((Request.deleteByKeyValue ["items", "notes"] "done" (.bool true) 0).run
      itemsService) doneAndDeleted).1 = .error (.configuration (.unknownContainer "notes" .delete)) := by
    decide +kernel
  refine ⟨_, Prod.ext h rfl, ?_⟩
  obtain hsame | ⟨-, _, _, herror⟩ := run_eq_or_unplaced (m := {}) (Prod.ext h rfl) trivial
  · exact hsame
  · cases herror

/-- Two items of one partition, of which an update has taken the partition key from the second. -/
def unplacedItems : Store :=
  itemsService.after [
    .create "items" [.ofList [("id", .str "a"), ("pk", .str "p")],
      .ofList [("id", .str "b"), ("pk", .str "p")]],
    .update "items" "b" "p" (.ofList [("pk", .null)]) .none] {}

/-- A deletion that takes items one by one is refused at the second and has deleted the first. -/
theorem exists_refused_halfway : ∃ s',
    outcome ((Request.deleteByKeyValue ["items"] "due" .null 1).run itemsService) unplacedItems =
      (.error (.validation (.unknownPartition "b" "items")), s') ∧
    (unplacedItems.find? "items" ⟨"p", "a"⟩).isSome ∧ (s'.find? "items" ⟨"p", "a"⟩).isNone := by
  have h : (outcome ((Request.deleteByKeyValue ["items"] "due" .null 1).run itemsService)
      unplacedItems).1 = .error (.validation (.unknownPartition "b" "items")) := by
    decide +kernel
  exact ⟨_, Prod.ext h rfl, by decide +kernel, by decide +kernel⟩

end Service
end DocumentStore
