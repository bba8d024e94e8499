import DocumentStore.Proofs.Backend.Table
import DocumentStore.Proofs.Service.Requests

/-! The stores that backends in memory come to hold.

Whatever is asked of a backend in memory, or of a service on one, and however it ends, what is filed is
stamped and has the id that it is filed under (`Store.StaysSound`). So every store that comes of an empty
one is sound (`Store.Reachable.sound`). -/
namespace DocumentStore
open DocumentStore.Action

/-- The second store is sound if the first is. -/
def Store.StaysSound (s s' : Store) : Prop := Table.Sound s.find? → Table.Sound s'.find?

instance : IsPreorder Store Store.StaysSound where
  refl _ h := h
  trans _ _ _ h h' hs := h' (h hs)

theorem Store.Includes.staysSound {s s' : Store} (h : s.Includes s') : s.StaysSound s' :=
  fun hs container key item hitem => hs container key item (h container key item hitem)

namespace Service
variable {m : Memory} {registry : Registry} {hashing : HashOrder}

/-- What a call does to the store it does whatever is made of its answer. -/
theorem staysSound_of_call (command : Command) {call : Action α} {answer : α → Answer}
    (h : command.run m.backend = answer <$> call) : Moves Store.StaysSound call := by
  intro s hs
  have hrun := m.sound_run hs command
  rwa [h, outcome_map] at hrun

theorem staysSound_create (container : String) (items : List Item) :
    Moves Store.StaysSound ((⟨m.backend, registry, hashing⟩ : Service).create container items) :=
  moves_liftM_bind fun _ _ => moves_liftM_bind fun _ _ => moves_liftM_bind fun _ _ =>
    moves_bind (moves_mapM fun (partition, item) _ =>
      staysSound_of_call (.create container partition item) rfl) fun _ => moves_pure _

theorem staysSound_revise (container id partition : String) (revision : Item → Item) :
    Moves Store.StaysSound
      ((⟨m.backend, registry, hashing⟩ : Service).revise container id partition revision) :=
  moves_bind (moves_ofReading _) fun old =>
    moves_bind (staysSound_of_call (.replace container id partition (revision old)) rfl)
      fun _ => moves_pure _

theorem staysSound_mark (container : String) (ids : List String) (partition : String)
    (deleted : Bool) (delay : Option PurgeDelay) :
    Moves Store.StaysSound
      ((⟨m.backend, registry, hashing⟩ : Service).mark container ids partition deleted delay) :=
  moves_liftM_bind fun _ _ => moves_liftM_bind fun _ _ =>
    moves_bind (moves_mapM fun _ _ => staysSound_revise _ _ _ _) fun _ => moves_pure _

theorem staysSound_update (container id partition : String) (updates : Item)
    (returned : ReturnValue) :
    Moves Store.StaysSound
      ((⟨m.backend, registry, hashing⟩ : Service).update container id partition updates returned) :=
  moves_liftM_bind fun _ _ => moves_liftM_bind fun _ _ =>
    moves_bind (staysSound_revise _ _ _ _) fun _ => moves_pure _

theorem staysSound_run_request (request : Request) :
    Moves Store.StaysSound (request.run ⟨m.backend, registry, hashing⟩) := by
  cases request with
  | create => exact moves_discard (staysSound_create _ _)
  | findByIds => exact moves_discard (moves_findByIds _ _ _)
  | find => exact moves_discard (moves_find _ _ _ _)
  | count => exact moves_discard (moves_count _ _ _)
  | deleteByIds container partition ids =>
    exact moves_discard fun s => (moves_deleteByIds container partition ids s).staysSound
  | deleteByKeyValue containers key value batch =>
    exact fun s => (moves_deleteByKeyValue containers key value batch s).staysSound
  | softDelete => exact moves_discard (staysSound_mark _ _ _ _ _)
  | undelete => exact moves_discard (staysSound_mark _ _ _ _ _)
  | update => exact moves_discard (staysSound_update _ _ _ _ _)
  | cloneByKeyValue => exact fun s => Std.Refl.refl s

end Service

/-- The stores that come of an empty one by calls of backends in memory and by requests of services on
them, of which some may have failed. -/
inductive Store.Reachable : Store → Prop where
  | empty : Reachable {}
  | call {s : Store} (m : Memory) (command : Command) (h : Reachable s) :
      Reachable (outcome (command.run m.backend) s).2
  | request {s : Store} {hashing : HashOrder} (m : Memory) (registry : Registry) (request : Request)
      (h : Reachable s) : Reachable (outcome (request.run ⟨m.backend, registry, hashing⟩) s).2

/-- **Every item of a reachable store has the id that it is filed under, and all that is stamped on a
write.** -/
theorem Store.Reachable.sound {s : Store} (h : s.Reachable) : Table.Sound s.find? := by
  induction h with
  | empty => exact Table.sound_empty
  | call m command _ ih => exact m.sound_run ih command
  | request _ _ request _ ih => exact Service.staysSound_run_request request _ ih

end DocumentStore
