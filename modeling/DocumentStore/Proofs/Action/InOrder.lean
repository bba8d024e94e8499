import DocumentStore.Proofs.Action.Effects
import DocumentStore.Proofs.Positions

/-! Actions on the elements of a list, in an order of its positions.

Calls that are made at once have their effects in whatever order they come to have them, and what they
yield is put together in the order in which they were made (`mapInOrder`). In the order of the list this
is to go through the list (`mapInOrder_range`); in any order it yields what going through the elements in
that order does, put differently (`exists_outcome_mapInOrder`). -/
namespace DocumentStore.Action

variable {s s' : Store}

/-- Runs an action on the elements of a list in a given order of their positions, and yields what comes
of them in the order of the list. -/
def mapInOrder (f : α → Action β) (xs : List α) (order : List Nat) : Action (List β) := do
  return inPlace (← (atPositions xs order).mapM fun call => do return (← f call.1, call.2))

/-- Positions that are kept beside an action have no part in it. -/
theorem mapM_keepingPositions (f : α → Action β) (calls : List (α × Nat)) :
    (calls.mapM fun call => do return (← f call.1, call.2)) = do
      return (← (calls.map Prod.fst).mapM f).zip (calls.map Prod.snd) := by
  induction calls with
  | nil => rfl
  | cons call rest ih =>
    simp only [List.map_cons, List.mapM_cons, ih, bind_assoc, pure_bind, List.zip_cons_cons]

theorem length_of_outcome_mapM {xs : List α} {f : α → Action β} {ys : List β}
    (h : outcome (xs.mapM f) s = (.ok ys, s')) : ys.length = xs.length := by
  induction xs generalizing s ys with
  | nil =>
    cases h
    rfl
  | cons x rest ih =>
    obtain ⟨y, s₁, ys', -, hrest, rfl⟩ := outcome_mapM_cons_eq_ok_iff.1 h
    rw [List.length_cons, List.length_cons, ih hrest]

theorem mapInOrder_range (f : α → Action β) (xs : List α) :
    mapInOrder f xs (List.range xs.length) = xs.mapM f := by
  funext store
  show outcome (mapInOrder f xs (List.range xs.length)) store = outcome (xs.mapM f) store
  rw [mapInOrder, atPositions_range, mapM_keepingPositions, List.zipIdx_map_fst, List.zipIdx_map_snd]
  simp only [bind_assoc, pure_bind]
  rw [outcome_bind]
  cases hrun : outcome (xs.mapM f) store with
  | mk result store' =>
    cases result with
    | error e => rfl
    | ok ys =>
      have hlength : ys.length = xs.length := length_of_outcome_mapM hrun
      show (Except.ok (inPlace (ys.zip (List.range' 0 xs.length))), store') = _
      rw [← hlength, ← List.zipIdx_eq_zip_range', inPlace_zipIdx]

/-- What comes out is what comes out when the elements are gone through in the order given, put in place. -/
theorem outcome_mapInOrder_eq_ok_iff {f : α → Action β} {xs : List α} {order : List Nat} {zs : List β} :
    outcome (mapInOrder f xs order) s = (.ok zs, s') ↔
      ∃ ys, outcome (((atPositions xs order).map Prod.fst).mapM f) s = (.ok ys, s') ∧
        zs = inPlace (ys.zip ((atPositions xs order).map Prod.snd)) := by
  rw [mapInOrder, mapM_keepingPositions]
  simp only [bind_assoc, pure_bind]
  rw [outcome_bind_eq_ok_iff]
  constructor
  · intro h
    obtain ⟨ys, _, h, hpure⟩ := h
    cases hpure
    exact ⟨ys, h, rfl⟩
  · intro h
    obtain ⟨ys, h, rfl⟩ := h
    exact ⟨ys, s', h, rfl⟩

/-- So what comes out is what comes out in the order given, put differently. -/
theorem exists_outcome_mapInOrder {f : α → Action β} {xs : List α} {order : List Nat} {ys : List β}
    (h : outcome (((atPositions xs order).map Prod.fst).mapM f) s = (.ok ys, s')) :
    ∃ zs, outcome (mapInOrder f xs order) s = (.ok zs, s') ∧ zs.Perm ys := by
  have hlength : ys.length = ((atPositions xs order).map Prod.snd).length := by
    rw [length_of_outcome_mapM h, List.length_map, List.length_map]
  refine ⟨_, outcome_mapInOrder_eq_ok_iff.2 ⟨ys, h, rfl⟩, ?_⟩
  have hperm := inPlace_perm (ys.zip ((atPositions xs order).map Prod.snd))
  rwa [List.map_fst_zip (Nat.le_of_eq hlength)] at hperm

/-- What holds of the elements and what comes of them in the order given, side by side, holds of them in the
order of the list. -/
theorem forall₂_of_outcome_mapInOrder {R : α → β → Prop} {f : α → Action β} {xs : List α} {order : List Nat}
    {zs : List β} (horder : order.Perm (List.range xs.length))
    (hrelated : ∀ ys, outcome (((atPositions xs order).map Prod.fst).mapM f) s = (.ok ys, s') →
      List.Forall₂ R ((atPositions xs order).map Prod.fst) ys)
    (h : outcome (mapInOrder f xs order) s = (.ok zs, s')) : List.Forall₂ R xs zs := by
  obtain ⟨ys, hys, rfl⟩ := outcome_mapInOrder_eq_ok_iff.1 h
  exact forall₂_inPlace (perm_atPositions horder) (forall₂_zip_positions (hrelated ys hys))

theorem moves_mapInOrder {R : Store → Store → Prop} [IsPreorder Store R] {f : α → Action β} {xs : List α}
    (hf : ∀ x ∈ xs, Moves R (f x)) (order : List Nat) : Moves R (mapInOrder f xs order) := by
  refine moves_bind (moves_mapM fun call hcall => ?_) fun _ => moves_pure _
  exact moves_bind (hf call.1 (mem_of_mem_atPositions hcall)) fun _ => moves_pure _

end DocumentStore.Action
