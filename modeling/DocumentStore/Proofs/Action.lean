import DocumentStore.Action

/-! Actions that come out: every step of them does, on the store that the step before leaves. -/
namespace DocumentStore.Action

/-- An action comes out in one way. -/
theorem eq_of_outcome_eq_ok {a : Action α} {x y : α} {s s₁ s₂ : Store} (hx : outcome a s = (.ok x, s₁))
    (hy : outcome a s = (.ok y, s₂)) : x = y :=
  Except.ok.inj (Prod.mk.inj (hx.symm.trans hy)).1

theorem outcome_map (f : α → β) (a : Action α) (s : Store) :
    outcome (f <$> a) s = (f <$> (outcome a s).1, (outcome a s).2) := by
  show outcome (a >>= fun x => pure (f x)) s = _
  rw [outcome_bind]
  cases outcome a s with
  | mk r s₁ => cases r <;> rfl

theorem outcome_bind_eq_ok_iff {a : Action α} {f : α → Action β} {s s' : Store} {b : β} :
    outcome (a >>= f) s = (.ok b, s') ↔
      ∃ x s₁, outcome a s = (.ok x, s₁) ∧ outcome (f x) s₁ = (.ok b, s') := by
  rw [outcome_bind]
  cases outcome a s with
  | mk r s₁ =>
    cases r with
    | error e =>
      constructor
      · intro h
        cases h
      · intro h
        obtain ⟨_, _, h, -⟩ := h
        cases h
    | ok x =>
      constructor
      · exact fun h => ⟨x, s₁, rfl, h⟩
      · intro h
        obtain ⟨_, _, h, hf⟩ := h
        cases h
        exact hf

/-- A check that comes out leaves the store as it is. -/
theorem outcome_liftM_bind_eq_ok_iff {r : Result α} {f : α → Action β} {s s' : Store} {b : β} :
    outcome (liftM r >>= f) s = (.ok b, s') ↔ ∃ x, r = .ok x ∧ outcome (f x) s = (.ok b, s') := by
  rw [outcome_bind_eq_ok_iff]
  constructor
  · intro h
    obtain ⟨x, s₁, h, hf⟩ := h
    cases h
    exact ⟨x, rfl, hf⟩
  · intro h
    obtain ⟨x, rfl, hf⟩ := h
    exact ⟨x, s, rfl, hf⟩

/-- A check before what only reads the store fails, or what is read behind it comes out. -/
theorem outcome_liftM_bind_of_reads {r : Result α} {f : α → Action β} {read : α → Result β} {s : Store}
    (h : ∀ x, r = .ok x → outcome (f x) s = (read x, s)) :
    outcome (liftM r >>= f) s = (r >>= read, s) := by
  rw [outcome_bind]
  cases r with
  | error e => rfl
  | ok x => exact h x rfl

/-- Actions behind a check that agree on what the check comes to are the same behind it. -/
theorem liftM_bind_congr {r : Result α} {f g : α → Action β} (h : ∀ x, r = .ok x → f x = g x) :
    (liftM r >>= f : Action β) = liftM r >>= g := by
  cases r with
  | error e => rfl
  | ok x => exact h x rfl

theorem discard_pure (x : α) : discard (pure x : Action α) = pure () := rfl

/-- Of two actions in sequence it is the answer of the second that is put aside. -/
theorem discard_bind (a : Action α) (f : α → Action β) :
    discard (a >>= f) = a >>= fun x => discard (f x) := by
  show (a >>= f) >>= (fun _ => pure ()) = a >>= fun x => f x >>= fun _ => pure ()
  rw [bind_assoc]

theorem outcome_discard_eq_ok_iff {a : Action α} {s s' : Store} :
    outcome (discard a) s = (.ok (), s') ↔ ∃ x, outcome a s = (.ok x, s') := by
  show outcome (a >>= fun _ => pure ()) s = _ ↔ _
  rw [outcome_bind_eq_ok_iff]
  constructor
  · intro h
    obtain ⟨x, s₁, h, hpure⟩ := h
    cases hpure
    exact ⟨x, h⟩
  · intro h
    obtain ⟨x, h⟩ := h
    exact ⟨x, s', h, rfl⟩

theorem outcome_forM_cons_eq_ok_iff {x : α} {xs : List α} {f : α → Action Unit} {s s' : Store} :
    outcome ((x :: xs).forM f) s = (.ok (), s') ↔
      ∃ s₁, outcome (f x) s = (.ok (), s₁) ∧ outcome (xs.forM f) s₁ = (.ok (), s') := by
  show outcome (f x >>= fun _ => xs.forM f) s = _ ↔ _
  rw [outcome_bind_eq_ok_iff]
  exact ⟨fun ⟨_, s₁, h⟩ => ⟨s₁, h⟩, fun ⟨s₁, h⟩ => ⟨(), s₁, h⟩⟩

theorem outcome_mapM_cons_eq_ok_iff {x : α} {xs : List α} {f : α → Action β} {s s' : Store}
    {ys : List β} :
    outcome ((x :: xs).mapM f) s = (.ok ys, s') ↔
      ∃ y s₁ rest, outcome (f x) s = (.ok y, s₁) ∧ outcome (xs.mapM f) s₁ = (.ok rest, s') ∧
        ys = y :: rest := by
  rw [List.mapM_cons, outcome_bind_eq_ok_iff]
  constructor
  · intro h
    obtain ⟨y, s₁, hfirst, hrest⟩ := h
    obtain ⟨rest, s₂, hrest, hpure⟩ := outcome_bind_eq_ok_iff.1 hrest
    cases hpure
    exact ⟨y, s₁, rest, hfirst, hrest, rfl⟩
  · intro h
    obtain ⟨y, s₁, rest, hfirst, hrest, rfl⟩ := h
    exact ⟨y, s₁, hfirst, outcome_bind_eq_ok_iff.2 ⟨rest, s', hrest, rfl⟩⟩

theorem outcome_ofChange_eq_ok_iff {change : Store → Result (α × Store)} {s s' : Store} {x : α} :
    outcome (ofChange change) s = (.ok x, s') ↔ change s = .ok (x, s') := by
  rw [outcome_ofChange]
  cases change s with
  | error e => exact ⟨nofun, nofun⟩
  | ok result => simp [Prod.ext_iff]

theorem isOk_outcome_iff {a : Action α} {s : Store} :
    (outcome a s).1.isOk = true ↔ ∃ x s', outcome a s = (.ok x, s') := by
  cases outcome a s with
  | mk r s' =>
    cases r with
    | error e => exact ⟨nofun, nofun⟩
    | ok x => exact ⟨fun _ => ⟨x, s', rfl⟩, fun _ => rfl⟩

theorem toOption_outcome_eq_none_iff {a : Action α} {s : Store} :
    (outcome a s).1.toOption = none ↔ ¬∃ x s', outcome a s = (.ok x, s') := by
  rw [← isOk_outcome_iff]
  cases (outcome a s).1 with
  | error e => exact ⟨fun _ => nofun, fun _ => rfl⟩
  | ok x => exact ⟨nofun, fun h => absurd rfl h⟩

theorem exists_outcome_eq_ok {a : Action Unit} {s : Store} (h : (outcome a s).1.isOk = true) :
    ∃ s', outcome a s = (.ok (), s') := by
  cases hout : outcome a s with
  | mk r s' =>
    rw [hout] at h
    cases r with
    | error e => cases h
    | ok => exact ⟨s', rfl⟩

end DocumentStore.Action
