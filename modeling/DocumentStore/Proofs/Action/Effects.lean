import DocumentStore.Proofs.Action
import DocumentStore.Proofs.Result
import Mathlib.Order.Defs.Unbundled

/-! What actions do to a store, however they end.

`Moves R` says that the store an action leaves is in the relation `R` to the one it began with, whether
it comes out or fails; for a preorder it is enough that every step moves the store so. `FailsWith E`
says that an action fails with errors of a kind alone, and `UnchangedOn E` that an action which fails
with an error of the kind has changed nothing. -/
namespace DocumentStore.Action

/-- The store that the action leaves is in the relation to the one it began with. -/
def Moves (R : Store → Store → Prop) (a : Action α) : Prop := ∀ s, R s (outcome a s).2

/-- The action fails with errors of the kind alone. -/
def FailsWith (E : Error → Prop) (a : Action α) : Prop :=
  ∀ s s' e, outcome a s = (.error e, s') → E e

/-- Where the action fails with an error of the kind, the store is as it was. -/
def UnchangedOn (E : Error → Prop) (a : Action α) : Prop :=
  ∀ s s' e, outcome a s = (.error e, s') → E e → s' = s

/-- Of two actions in sequence the first fails, or the second behind it. -/
theorem outcome_bind_eq_error_iff {a : Action α} {f : α → Action β} {s s' : Store} {e : Error} :
    outcome (a >>= f) s = (.error e, s') ↔
      outcome a s = (.error e, s') ∨
        ∃ x s₁, outcome a s = (.ok x, s₁) ∧ outcome (f x) s₁ = (.error e, s') := by
  rw [outcome_bind]
  cases outcome a s with
  | mk r s₁ =>
    cases r with
    | error e' =>
      constructor
      · intro h
        cases h
        exact .inl rfl
      · intro h
        obtain h | ⟨_, _, h, -⟩ := h
        · cases h
          rfl
        · cases h
    | ok x =>
      constructor
      · exact fun h => .inr ⟨x, s₁, rfl, h⟩
      · intro h
        obtain h | ⟨_, _, h, hf⟩ := h
        · cases h
        · cases h
          exact hf

theorem outcome_forM_cons_eq_error_iff {x : α} {xs : List α} {f : α → Action Unit} {s s' : Store}
    {e : Error} :
    outcome ((x :: xs).forM f) s = (.error e, s') ↔
      outcome (f x) s = (.error e, s') ∨
        ∃ s₁, outcome (f x) s = (.ok (), s₁) ∧ outcome (xs.forM f) s₁ = (.error e, s') := by
  show outcome (f x >>= fun _ => xs.forM f) s = _ ↔ _
  rw [outcome_bind_eq_error_iff]
  exact or_congr_right ⟨fun ⟨_, s₁, h⟩ => ⟨s₁, h⟩, fun ⟨s₁, h⟩ => ⟨(), s₁, h⟩⟩

/-! ### Where the store moves to -/

section Moves
variable {R : Store → Store → Prop} [IsPreorder Store R]

theorem moves_pure (x : α) : Moves R (pure x) := fun s => Std.Refl.refl s

theorem moves_ofReading (reading : Store → Result α) : Moves R (ofReading reading) :=
  fun s => Std.Refl.refl s

theorem moves_ofChange {change : Store → Result (α × Store)}
    (h : ∀ s s' x, change s = .ok (x, s') → R s s') : Moves R (ofChange change) := by
  intro s
  rw [outcome_ofChange]
  split
  · next x s' hchange => exact h s s' x hchange
  · exact Std.Refl.refl s

theorem moves_bind {a : Action α} {f : α → Action β} (ha : Moves R a) (hf : ∀ x, Moves R (f x)) :
    Moves R (a >>= f) := by
  intro s
  have hfirst := ha s
  rw [outcome_bind]
  split
  · next x s₁ hout =>
    rw [hout] at hfirst
    exact IsTrans.trans _ _ _ hfirst (hf x s₁)
  · next hout =>
    rw [hout] at hfirst
    exact hfirst

/-- Behind a check the store moves as behind what the check comes to. -/
theorem moves_liftM_bind {r : Result α} {f : α → Action β} (hf : ∀ x, r = .ok x → Moves R (f x)) :
    Moves R (liftM r >>= f) := by
  intro s
  rw [outcome_bind, outcome_liftM]
  cases r with
  | error e => exact Std.Refl.refl s
  | ok x => exact hf x rfl s

theorem moves_discard {a : Action α} (ha : Moves R a) : Moves R (discard a) :=
  moves_bind ha fun _ => moves_pure ()

omit [IsPreorder Store R] in
theorem moves_attempt {a : Action α} (ha : Moves R a) : Moves R a.attempt := by
  intro s
  have hmoves := ha s
  rw [outcome_attempt]
  cases hout : outcome a s with
  | mk result s' =>
    rw [hout] at hmoves
    split <;> cases ‹_ = _› <;> exact hmoves

theorem moves_forM {f : α → Action Unit} {xs : List α} (hf : ∀ x ∈ xs, Moves R (f x)) :
    Moves R (xs.forM f) := by
  induction xs with
  | nil => exact moves_pure ()
  | cons x rest ih =>
    obtain ⟨hx, hrest⟩ := List.forall_mem_cons.1 hf
    exact moves_bind hx fun _ => ih hrest

theorem moves_mapM {f : α → Action β} {xs : List α} (hf : ∀ x ∈ xs, Moves R (f x)) :
    Moves R (xs.mapM f) := by
  induction xs with
  | nil => exact moves_pure []
  | cons x rest ih =>
    obtain ⟨hx, hrest⟩ := List.forall_mem_cons.1 hf
    rw [List.mapM_cons]
    exact moves_bind hx fun _ => moves_bind (ih hrest) fun _ => moves_pure _

end Moves

/-! ### Which errors there are -/

section Errors
variable {E : Error → Prop}

theorem failsWith_pure (x : α) : FailsWith E (pure x) := fun _ _ _ h => nomatch h

theorem failsWith_ofChange {change : Store → Result (α × Store)}
    (h : ∀ s e, change s = .error e → E e) : FailsWith E (ofChange change) := by
  intro s s' e hout
  rw [outcome_ofChange] at hout
  split at hout
  · cases hout
  · next hchange =>
    cases hout
    exact h s e hchange

theorem failsWith_bind {a : Action α} {f : α → Action β} (ha : FailsWith E a)
    (hf : ∀ x, FailsWith E (f x)) : FailsWith E (a >>= f) := by
  intro s s' e hout
  obtain hfirst | ⟨x, s₁, -, hnext⟩ := outcome_bind_eq_error_iff.1 hout
  · exact ha s s' e hfirst
  · exact hf x s₁ s' e hnext

theorem failsWith_liftM_bind {r : Result α} {f : α → Action β} (hr : ∀ e, r = .error e → E e)
    (hf : ∀ x, r = .ok x → FailsWith E (f x)) : FailsWith E (liftM r >>= f) := by
  intro s s' e hout
  obtain hfirst | ⟨x, s₁, hcheck, hnext⟩ := outcome_bind_eq_error_iff.1 hout
  · exact hr e (Prod.mk.inj hfirst).1
  · exact hf x (Prod.mk.inj hcheck).1 s₁ s' e hnext

theorem failsWith_discard {a : Action α} (ha : FailsWith E a) : FailsWith E (discard a) :=
  failsWith_bind ha fun _ => failsWith_pure ()

/-- An attempt makes up for all failures but panics. -/
theorem failsWith_attempt (a : Action α) : FailsWith (fun e => ∃ cause, e = .panic cause) a.attempt := by
  intro s s' e hout
  rw [outcome_attempt] at hout
  split at hout <;> cases hout
  exact ⟨_, rfl⟩

theorem failsWith_forM {f : α → Action Unit} {xs : List α} (hf : ∀ x ∈ xs, FailsWith E (f x)) :
    FailsWith E (xs.forM f) := by
  induction xs with
  | nil => exact failsWith_pure ()
  | cons x rest ih =>
    obtain ⟨hx, hrest⟩ := List.forall_mem_cons.1 hf
    exact failsWith_bind hx fun _ => ih hrest

theorem failsWith_mapM {f : α → Action β} {xs : List α} (hf : ∀ x ∈ xs, FailsWith E (f x)) :
    FailsWith E (xs.mapM f) := by
  induction xs with
  | nil => exact failsWith_pure []
  | cons x rest ih =>
    obtain ⟨hx, hrest⟩ := List.forall_mem_cons.1 hf
    rw [List.mapM_cons]
    exact failsWith_bind hx fun _ => failsWith_bind (ih hrest) fun _ => failsWith_pure _

/-! ### Which errors leave the store as it was -/

theorem unchangedOn_of_failsWith {a : Action α} (h : FailsWith (fun e => ¬E e) a) :
    UnchangedOn E a :=
  fun s s' e hout he => absurd he (h s s' e hout)

/-- What never changes the store does not change it on an error. -/
theorem unchangedOn_of_moves_eq {a : Action α} (h : Moves Eq a) : UnchangedOn E a := by
  intro s s' e hout _
  have hsame := h s
  rw [hout] at hsame
  exact hsame.symm

theorem unchangedOn_liftM_bind {r : Result α} {f : α → Action β}
    (hf : ∀ x, r = .ok x → UnchangedOn E (f x)) : UnchangedOn E (liftM r >>= f) := by
  intro s s' e hout he
  obtain hfirst | ⟨x, s₁, hcheck, hnext⟩ := outcome_bind_eq_error_iff.1 hout
  · exact (Prod.mk.inj hfirst).2.symm
  · obtain ⟨hr, rfl⟩ := Prod.mk.inj hcheck
    exact hf x hr _ _ e hnext he

theorem unchangedOn_discard {a : Action α} (ha : UnchangedOn E a) : UnchangedOn E (discard a) := by
  intro s s' e hout he
  obtain hfirst | ⟨_, _, -, hnext⟩ := outcome_bind_eq_error_iff.1 hout
  · exact ha s s' e hfirst he
  · cases hnext

end Errors
end DocumentStore.Action
