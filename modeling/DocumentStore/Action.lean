import DocumentStore.Error
import DocumentStore.Store.Basic

/-! Actions on a store: what may change it, and may fail. A failure keeps the changes made before
it. -/
namespace DocumentStore

/-- What runs on a store and yields a result or fails. -/
abbrev Action := ExceptT Error (StateM Store)

namespace Action

/-- The outcome of an action, and the store it leaves. -/
def outcome (a : Action α) (s : Store) : Result α × Store := a.run s

/-- A change of the store in one step: where it fails, the store stays as it is. -/
def ofChange (change : Store → Result (α × Store)) : Action α := fun s =>
  match change s with
  | .ok (a, s') => (.ok a, s')
  | .error e => (.error e, s)

/-- What can be read off the store. -/
def ofReading (reading : Store → Result α) : Action α := fun s => (reading s, s)

/-- The result of an action, none where it fails. A panic is not made up for. -/
def attempt (a : Action α) : Action (Option α) := fun s =>
  match a s with
  | (.ok x, s') => (.ok (some x), s')
  | (.error (.panic cause), s') => (.error (.panic cause), s')
  | (.error _, s') => (.ok none, s')

/-! ### What each way of making an action comes to -/

@[simp] theorem outcome_pure (a : α) (s : Store) : outcome (pure a) s = (.ok a, s) := rfl

@[simp] theorem outcome_throw (e : Error) (s : Store) :
    outcome (throw e : Action α) s = (.error e, s) := rfl

@[simp] theorem outcome_get (s : Store) : outcome get s = (.ok s, s) := rfl

/-- The second of two actions runs on the store that the first leaves, unless the first fails. -/
theorem outcome_bind (a : Action α) (f : α → Action β) (s : Store) :
    outcome (a >>= f) s =
      match outcome a s with
      | (.ok x, s') => outcome (f x) s'
      | (.error e, s') => (.error e, s') := by
  show StateT.bind a (ExceptT.bindCont f) s = _
  cases h : outcome a s with
  | mk r s' =>
    have ha : a s = (r, s') := h
    simp only [StateT.bind, ha]
    cases r <;> rfl

/-- A check takes no step on the store. -/
@[simp] theorem outcome_liftM (r : Result α) (s : Store) : outcome (liftM r) s = (r, s) := rfl

@[simp] theorem outcome_ofReading (reading : Store → Result α) (s : Store) :
    outcome (ofReading reading) s = (reading s, s) := rfl

theorem outcome_ofChange (change : Store → Result (α × Store)) (s : Store) :
    outcome (ofChange change) s =
      match change s with
      | .ok (a, s') => (.ok a, s')
      | .error e => (.error e, s) := rfl

theorem outcome_attempt (a : Action α) (s : Store) :
    outcome a.attempt s =
      match outcome a s with
      | (.ok x, s') => (.ok (some x), s')
      | (.error (.panic cause), s') => (.error (.panic cause), s')
      | (.error _, s') => (.ok none, s') := rfl

end Action
end DocumentStore
