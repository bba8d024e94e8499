import DocumentStore.Error
import Mathlib.Data.List.Forall2

/-! Results of several steps: one comes out exactly if every step does. -/
namespace DocumentStore

/-- Of two lists side by side, each element of the first has its own in the second. -/
theorem exists_of_mem_forall₂ {R : α → β → Prop} {xs : List α} {ys : List β}
    (h : List.Forall₂ R xs ys) {x : α} (hx : x ∈ xs) : ∃ y ∈ ys, R x y := by
  obtain ⟨i, hi, rfl⟩ := List.mem_iff_getElem.1 hx
  have hi' : i < ys.length := h.length_eq ▸ hi
  exact ⟨ys[i], List.getElem_mem hi', h.get hi hi'⟩

/-- Relations that agree on the elements of the first list relate the same lists to it. -/
theorem forall₂_iff_of_mem {R S : α → β → Prop} {xs : List α} {ys : List β}
    (h : ∀ x ∈ xs, ∀ y, R x y ↔ S x y) : List.Forall₂ R xs ys ↔ List.Forall₂ S xs ys :=
  ⟨fun hR => ((List.forall₂_and_left _ _).2 ⟨h, hR⟩).imp fun _ y hxy => (hxy.1 y).1 hxy.2,
    fun hS => ((List.forall₂_and_left _ _).2 ⟨h, hS⟩).imp fun _ y hxy => (hxy.1 y).2 hxy.2⟩

namespace Result

theorem bind_eq_ok_iff {x : Result α} {f : α → Result β} {b : β} :
    x >>= f = .ok b ↔ ∃ a, x = .ok a ∧ f a = .ok b := by
  cases x with
  | error e =>
    show Except.error e = .ok b ↔ _
    constructor
    · intro h
      cases h
    · intro h
      obtain ⟨_, h, -⟩ := h
      cases h
  | ok a =>
    show f a = .ok b ↔ _
    constructor
    · exact fun h => ⟨a, rfl, h⟩
    · intro h
      obtain ⟨_, h, hf⟩ := h
      cases h
      exact hf

theorem map_eq_ok_iff {f : α → β} {x : Result α} {b : β} :
    f <$> x = .ok b ↔ ∃ a, x = .ok a ∧ f a = b := by
  cases x with
  | error e =>
    show Except.error e = .ok b ↔ _
    constructor
    · intro h
      cases h
    · intro h
      obtain ⟨_, h, -⟩ := h
      cases h
  | ok a =>
    show Except.ok (f a) = .ok b ↔ _
    constructor
    · exact fun h => ⟨a, rfl, Except.ok.inj h⟩
    · intro h
      obtain ⟨_, h, hf⟩ := h
      cases h
      rw [hf]

theorem map_eq_error_iff {f : α → β} {x : Result α} {e : Error} : f <$> x = .error e ↔ x = .error e := by
  cases x with
  | error e' =>
    show Except.error e' = .error e ↔ _
    rw [Except.error.injEq, Except.error.injEq]
  | ok a => exact ⟨nofun, nofun⟩

theorem bind_eq_error_iff {x : Result α} {f : α → Result β} {e : Error} :
    x >>= f = .error e ↔ x = .error e ∨ ∃ a, x = .ok a ∧ f a = .error e := by
  cases x with
  | error e' =>
    show Except.error e' = .error e ↔ _
    constructor
    · intro h
      cases h
      exact .inl rfl
    · intro h
      obtain h | ⟨_, h, -⟩ := h
      · cases h
        rfl
      · cases h
  | ok a =>
    show f a = .error e ↔ _
    constructor
    · exact fun h => .inr ⟨a, rfl, h⟩
    · intro h
      obtain h | ⟨_, h, hf⟩ := h
      · cases h
      · cases h
        exact hf

/-- Continuations that agree on what comes out come to the same. -/
theorem bind_congr {x : Result α} {f g : α → Result β} (h : ∀ a, x = .ok a → f a = g a) :
    x >>= f = x >>= g := by
  cases x with
  | error e => rfl
  | ok a => exact h a rfl

theorem ok_ne_error {a : α} {e : Error} : (.ok a : Result α) ≠ .error e := fun h => by cases h

/-- A list is worked through exactly if each of its elements is. -/
theorem mapM_eq_ok_iff {f : α → Result β} {xs : List α} {ys : List β} :
    xs.mapM f = .ok ys ↔ List.Forall₂ (fun x y => f x = .ok y) xs ys := by
  induction xs generalizing ys with
  | nil =>
    rw [List.mapM_nil]
    constructor
    · intro h
      cases h
      exact .nil
    · intro h
      cases h
      rfl
  | cons x xs ih =>
    simp only [List.mapM_cons, bind_eq_ok_iff]
    constructor
    · intro h
      obtain ⟨y, hy, ys', hys, h⟩ := h
      cases h
      exact .cons hy (ih.1 hys)
    · intro h
      cases h with
      | @cons _ y _ ys' hy hys => exact ⟨y, hy, ys', ih.2 hys, rfl⟩

theorem exists_mapM_eq_ok {f : α → Result β} {xs : List α} (h : ∀ x ∈ xs, ∃ y, f x = .ok y) :
    ∃ ys, xs.mapM f = .ok ys := by
  induction xs with
  | nil => exact ⟨[], rfl⟩
  | cons x xs ih =>
    obtain ⟨⟨y, hy⟩, hxs⟩ := List.forall_mem_cons.1 h
    obtain ⟨ys, hys⟩ := ih hxs
    exact ⟨y :: ys, mapM_eq_ok_iff.2 (.cons hy (mapM_eq_ok_iff.1 hys))⟩

/-- A list that is not worked through stops at one of its elements. -/
theorem exists_of_mapM_eq_error {f : α → Result β} {xs : List α} {e : Error}
    (h : xs.mapM f = .error e) : ∃ x ∈ xs, f x = .error e := by
  induction xs with
  | nil =>
    rw [List.mapM_nil] at h
    cases h
  | cons x xs ih =>
    rw [List.mapM_cons, bind_eq_error_iff] at h
    obtain hx | ⟨_, -, h⟩ := h
    · exact ⟨x, List.mem_cons_self, hx⟩
    · obtain hrest | ⟨_, -, h⟩ := bind_eq_error_iff.1 h
      · obtain ⟨x', hx', hf⟩ := ih hrest
        exact ⟨x', List.mem_cons_of_mem x hx', hf⟩
      · cases h

/-- A list worked through in one pass is worked through in two, if the second never fails on what comes out
of the first. -/
theorem mapM_eq_bind_mapM {f : α → Result γ} {g : α → Result β} {h : β → Result γ}
    (hf : ∀ x, f x = g x >>= h) (hh : ∀ x y, g x = .ok y → ∃ z, h y = .ok z) (xs : List α) :
    xs.mapM f = xs.mapM g >>= (·.mapM h) := by
  induction xs with
  | nil => rfl
  | cons x xs ih =>
    rw [List.mapM_cons, List.mapM_cons, hf x, ih]
    cases hg : g x with
    | error e => rfl
    | ok y =>
      obtain ⟨z, hz⟩ := hh x y hg
      cases hgs : xs.mapM g with
      | error e =>
        show h y >>= _ = Except.error e
        rw [hz]
        rfl
      | ok ys =>
        show h y >>= (fun z => ys.mapM h >>= fun zs => pure (z :: zs)) = (y :: ys).mapM h
        rw [List.mapM_cons]

end Result
end DocumentStore
