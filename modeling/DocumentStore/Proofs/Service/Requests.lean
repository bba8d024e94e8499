import DocumentStore.Proofs.Action.Effects
import DocumentStore.Proofs.Schema.Registry
import DocumentStore.Service.Cloning
import DocumentStore.Service.Creation
import DocumentStore.Service.Deletion
import DocumentStore.Service.Revision
import DocumentStore.Service.Search

/-! Requests as data, and what each can do to a store in memory.

A run carries out requests one after the other, whether or not they fail (`Service.after`). Searches
and counts leave the store as it is, deletions leave of it what they leave (`Store.Includes`), and a
revision is one item filed in place of another (`outcome_revise`). -/
namespace DocumentStore
open DocumentStore.Action
open Json (Value)

/-- What callers ask of a service. -/
inductive Request where
  | create (container : String) (items : List Item)
  | findByIds (container : String) (ids : List String) (partition : String)
  | find (container partition : String) (criteria : Option Criteria) (options : SearchOptions)
  | count (container partition : String) (criteria : Option Criteria)
  | deleteByIds (container partition : String) (ids : List String)
  | deleteByKeyValue (containers : List String) (key : String) (value : Value) (batch : UInt64)
  | softDelete (container : String) (ids : List String) (partition : String)
    (delay : Option PurgeDelay)
  | undelete (container : String) (ids : List String) (partition : String)
    (delay : Option PurgeDelay)
  | update (container id partition : String) (updates : Item) (returned : ReturnValue)
  | cloneByKeyValue (request : Option Clone.Request) (key : String) (source target : Value)

/-- The request carried out, its answer aside. -/
def Request.run (s : Service) : Request → Action Unit
  | create container items => discard (s.create container items)
  | findByIds container ids partition => discard (s.findByIds container ids partition)
  | find container partition criteria options =>
    discard (s.find container partition criteria options)
  | count container partition criteria => discard (s.count container partition criteria)
  | deleteByIds container partition ids => discard (s.deleteByIds container partition ids)
  | deleteByKeyValue containers key value batch => s.deleteByKeyValue containers key value batch
  | softDelete container ids partition delay => s.softDelete container ids partition delay
  | undelete container ids partition delay => discard (s.undelete container ids partition delay)
  | update container id partition updates returned =>
    discard (s.update container id partition updates returned)
  | cloneByKeyValue request key source target =>
    discard (s.cloneByKeyValue request key source target)

/-- What a request does to the store, and whether it comes out, does not depend on the way back to external
names that it draws: that is for its answer alone. -/
theorem Request.run_redraw (b : Backend) (registry : Registry) (hashing hashing' : HashOrder)
    (request : Request) : request.run ⟨b, registry, hashing'⟩ = request.run ⟨b, registry, hashing⟩ := by
  cases request with
  | count | deleteByKeyValue | cloneByKeyValue => rfl
  | findByIds | find =>
    simp only [run, Service.findByIds, Service.find, Service.schema, discard_bind, discard_pure]
  | create | deleteByIds =>
    simp only [run, Service.create, Service.deleteByIds, Service.schema, Service.file, discard_bind,
      discard_pure]
  | softDelete | undelete | update =>
    simp only [run, Service.softDelete, Service.undelete, Service.mark, Service.update, Service.schema,
      Service.revise, discard_bind, discard_pure]

/-- The store after a run of requests, of which some may have failed. That each of them draws a way back of
its own makes no difference to it (`Request.run_redraw`). -/
def Service.after (s : Service) : List Request → Store → Store
  | [], store => store
  | request :: rest, store => s.after rest (outcome (request.run s) store).2

theorem Service.after_moves {R : Store → Store → Prop} [IsPreorder Store R] {s : Service}
    {requests : List Request} (h : ∀ request ∈ requests, Moves R (request.run s)) (store : Store) :
    R store (s.after requests store) := by
  induction requests generalizing store with
  | nil => exact Std.Refl.refl store
  | cons request rest ih =>
    obtain ⟨hfirst, hrest⟩ := List.forall_mem_cons.1 h
    exact IsTrans.trans _ _ _ (hfirst store) (ih hrest _)

/-- What is in the second store is in the first. -/
def Store.Includes (s s' : Store) : Prop :=
  ∀ container key item, s'.find? container key = some item → s.find? container key = some item

instance : IsPreorder Store Store.Includes where
  refl _ _ _ _ h := h
  trans _ _ _ h h' container key item hitem := h container key item (h' container key item hitem)

namespace Service

variable {m : Memory} {registry : Registry} {hashing : HashOrder}

/-! ### Searches and counts -/

section Searches
variable {R : Store → Store → Prop} [IsPreorder Store R]

theorem moves_pagesFrom {ask : Option String → Action Page} (h : ∀ token, Moves R (ask token))
    (most : Nat) (token : Option String) : Moves R (pagesFrom ask most token) := by
  induction most generalizing token with
  | zero => exact moves_pure []
  | succ most ih =>
    refine moves_bind (h token) fun page => ?_
    cases page.continuation with
    | none => exact moves_pure [page]
    | some next => exact moves_bind (ih (some next)) fun _ => moves_pure _

theorem moves_rows (container : String) (q : Query) : Moves R (m.backend.rows container q) := by
  have hask : ∀ token, Moves R (m.backend.query container q token) := fun _ => moves_ofReading _
  have hpages : Moves R (m.backend.pages container q) :=
    moves_bind (moves_ofReading .ok) fun _ => moves_pagesFrom hask _ _
  exact moves_bind hpages fun _ => moves_pure _

theorem moves_findByIds (container : String) (ids : List String) (partition : String) :
    Moves R ((⟨m.backend, registry, hashing⟩ : Service).findByIds container ids partition) :=
  moves_liftM_bind fun _ _ => moves_liftM_bind fun _ _ => moves_liftM_bind fun _ _ =>
    moves_bind (moves_ofReading _) fun _ => moves_pure _

theorem moves_find (container partition : String) (criteria : Option Criteria)
    (options : SearchOptions) :
    Moves R ((⟨m.backend, registry, hashing⟩ : Service).find container partition criteria options) :=
  moves_liftM_bind fun _ _ => moves_liftM_bind fun _ _ => moves_liftM_bind fun _ _ =>
    moves_liftM_bind fun _ _ => moves_liftM_bind fun _ _ =>
      moves_bind (moves_rows _ _) fun _ => moves_pure _

theorem moves_count (container partition : String) (criteria : Option Criteria) :
    Moves R ((⟨m.backend, registry, hashing⟩ : Service).count container partition criteria) := by
  refine moves_liftM_bind fun _ _ => ?_
  have hcounting : Moves R (do
      let schema ← (⟨m.backend, registry, hashing⟩ : Service).schema container .query
      let query ← Query.counting schema partition criteria
      return ((← m.backend.rows container query).map countOf).foldr (· + ·) 0) :=
    moves_liftM_bind fun _ _ => moves_liftM_bind fun _ _ =>
      moves_bind (moves_rows _ _) fun _ => moves_pure _
  cases criteria with
  | none => exact hcounting
  | some c => exact moves_liftM_bind fun _ _ => hcounting

end Searches

/-! ### Deletions -/

theorem moves_delete (container id partition : String) :
    Moves Store.Includes (m.backend.delete container id partition) := by
  refine moves_ofChange fun s s' item h other key item' hitem' => ?_
  unfold Store.delete at h
  split at h
  · cases h
  · cases h
    rw [Store.find?_remove] at hitem'
    split at hitem'
    · cases hitem'
    · exact hitem'

theorem moves_deleteByIds (container partition : String) (ids : List String) :
    Moves Store.Includes
      ((⟨m.backend, registry, hashing⟩ : Service).deleteByIds container partition ids) :=
  moves_liftM_bind fun _ _ => moves_liftM_bind fun _ _ =>
    moves_bind (moves_mapM fun _ _ => moves_attempt (moves_delete _ _ _)) fun _ => moves_pure _

theorem moves_deletePage (container : String) (fallback : Option String) (chunk : Nat)
    (rows : List Item) :
    Moves Store.Includes
      ((⟨m.backend, registry, hashing⟩ : Service).deletePage container fallback chunk rows) :=
  moves_forM fun _ _ => moves_liftM_bind fun _ _ => moves_forM fun _ _ =>
    moves_discard (moves_delete _ _ _)

/-- A round on a page: without rows it is the last. -/
theorem outcome_deleteRounds_succ {ask : Action Page} {remove : List Item → Action Unit} {most : Nat}
    {s s₁ : Store} {page : Page} (hpage : outcome ask s = (.ok page, s₁)) :
    outcome (deleteRounds ask remove (most + 1)) s =
      if page.items.isEmpty then (.ok (), s₁)
      else outcome (remove page.items >>= fun _ => deleteRounds ask remove most) s₁ := by
  rw [deleteRounds, outcome_bind, hpage]
  show outcome (if page.items.isEmpty then pure () else _) s₁ = _
  split
  · rfl
  · rfl

theorem moves_deleteRounds {R : Store → Store → Prop} [IsPreorder Store R] {ask : Action Page}
    {remove : List Item → Action Unit} (hask : Moves R ask) (hremove : ∀ rows, Moves R (remove rows))
    (most : Nat) : Moves R (deleteRounds ask remove most) := by
  induction most with
  | zero => exact moves_pure ()
  | succ most ih =>
    refine moves_bind hask fun page => ?_
    cases page.items with
    | nil => exact moves_pure ()
    | cons row rest => exact moves_bind (hremove _) fun _ => ih

theorem moves_deleteMatching (schema : Schema) (key : String) (value : Value) (batch : UInt64) :
    Moves Store.Includes
      ((⟨m.backend, registry, hashing⟩ : Service).deleteMatching schema key value batch) :=
  moves_liftM_bind fun _ _ => moves_bind (moves_ofReading .ok) fun _ =>
    moves_deleteRounds (moves_ofReading _) (fun _ => moves_deletePage _ _ _ _) _

theorem moves_deleteByKeyValue (containers : List String) (key : String) (value : Value)
    (batch : UInt64) :
    Moves Store.Includes
      ((⟨m.backend, registry, hashing⟩ : Service).deleteByKeyValue containers key value batch) :=
  moves_liftM_bind fun _ _ => moves_liftM_bind fun _ _ => moves_forM fun _ _ =>
    moves_deleteMatching _ _ _ _

/-! ### Revisions -/

/-- The item that is filed when a revision of one under a key is. -/
def refiled (m : Memory) (s : Store) (container id : String) (revised : Item) : Item :=
  Item.stamped (m.stamp s.writes) container (revised.insert Reserved.id (.str id))

/-- A revision reads an item and files its revision in the same place. -/
theorem outcome_revise (container id partition : String) (revision : Item → Item) (s : Store) :
    outcome ((⟨m.backend, registry, hashing⟩ : Service).revise container id partition revision) s =
      match s.find? container ⟨partition, id⟩ with
      | none => (.error (.notFound id container), s)
      | some old =>
        let new := refiled m s container id (revision old)
        (.ok (old, new), s.put container ⟨partition, id⟩ new) := by
  show outcome (.ofReading (Store.read container id partition) >>= fun old =>
    .ofChange (Store.replace m.stamp container id partition (revision old)) >>= fun new =>
      pure (old, new)) s = _
  rw [outcome_bind, outcome_ofReading, Store.read]
  cases h : s.find? container ⟨partition, id⟩ with
  | none => rfl
  | some old =>
    show outcome (_ >>= _) s = _
    rw [outcome_bind, outcome_ofChange, Store.replace, h]
    rfl

end Service
end DocumentStore
