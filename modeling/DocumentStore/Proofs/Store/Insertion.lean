import DocumentStore.Proofs.Json.Paths
import DocumentStore.Store.Projection

/-! What setting a value at a path does to an item.

What follows says it by what the paths into the item lead to. Where the way is clear (`Item.Clear`) the
value and all in it are found behind the path (`Item.at?_insertAt_append`), and paths that go elsewhere lead
to what they led to (`Item.at?_insertAt_apart`). A value that is there already is set for nothing
(`Item.insertAt_eq_self`). -/
namespace DocumentStore
open Json (Value)

variable {v w : Value} {members : List (String × Value)} {name : String}
  {path rest other : List String} {item : Item}

/-! ### Members of objects -/

theorem insertAtMembers_cons_cons (v : Value) (name name' : String) (rest : List String)
    (members : List (String × Value)) :
    insertAtMembers v (name :: name' :: rest) members =
      match Entries.find? name members with
      | none => Entries.insert name (.obj (insertAtMembers v (name' :: rest) [])) members
      | some (.obj inner) => Entries.insert name (.obj (insertAtMembers v (name' :: rest) inner)) members
      | some _ => members := rfl

/-- Whatever stands on the way to the end of the path is an object. -/
def Clear (members : List (String × Value)) (path : List String) : Prop :=
  ∀ front name rest, path = front ++ name :: rest → ∀ w, (Value.obj members).at? front = some w →
    ∃ inner, w = .obj inner

theorem clear_nil (path : List String) : Clear [] path := by
  intro front name rest _ w hw
  cases front with
  | nil => exact ⟨[], (Option.some.inj hw).symm⟩
  | cons => cases hw

/-- The way is clear behind the first name of a path. -/
theorem Clear.inner {inner : List (String × Value)} (h : Clear members (name :: rest))
    (hinner : Entries.find? name members = some (.obj inner)) : Clear inner rest := by
  intro front name' rest' heq w hw
  refine h (name :: front) name' rest' (by rw [heq, List.cons_append]) w ?_
  show (Entries.find? name members).bind _ = _
  rw [hinner]
  exact hw

theorem find?_insertAtMembers_of_ne {other : String} (h : other ≠ name) (v : Value) (rest : List String)
    (members : List (String × Value)) :
    Entries.find? other (insertAtMembers v (name :: rest) members) = Entries.find? other members := by
  cases rest with
  | nil => simp [insertAtMembers, Entries.find?_insert, h]
  | cons name' rest =>
    rw [insertAtMembers_cons_cons]
    split
    · simp [Entries.find?_insert, h]
    · simp [Entries.find?_insert, h]
    · rfl

/-- Under the first name of a longer path stands what is made of the object that was there, or of an empty
one. -/
theorem find?_insertAtMembers (name' : String) (hclear : Clear members (name :: name' :: rest)) (v : Value) :
    ∃ inner, Clear inner (name' :: rest) ∧
      Entries.find? name (insertAtMembers v (name :: name' :: rest) members) =
        some (.obj (insertAtMembers v (name' :: rest) inner)) := by
  rw [insertAtMembers_cons_cons]
  cases hfound : Entries.find? name members with
  | none => exact ⟨[], clear_nil _, by simp [Entries.find?_insert]⟩
  | some w =>
    obtain ⟨inner, rfl⟩ := hclear [name] name' rest rfl w (by rw [Value.at?_singleton]; exact hfound)
    exact ⟨inner, hclear.inner hfound, by simp [Entries.find?_insert]⟩

theorem at?_insertAtMembers_append (hne : path ≠ []) (hclear : Clear members path) (v : Value)
    (rest : List String) :
    (Value.obj (insertAtMembers v path members)).at? (path ++ rest) = v.at? rest := by
  induction path generalizing members with
  | nil => exact absurd rfl hne
  | cons name path ih =>
    rw [List.cons_append, Value.at?, Value.member?]
    cases path with
    | nil =>
      rw [insertAtMembers, Entries.find?_insert, if_pos rfl]
      rfl
    | cons name' path =>
      obtain ⟨inner, hinner, hfound⟩ := find?_insertAtMembers name' hclear v
      rw [hfound]
      exact ih (List.cons_ne_nil _ _) hinner

theorem at?_insertAtMembers_apart (hpath : ¬path <+: other) (hother : ¬other <+: path) (v : Value)
    (members : List (String × Value)) :
    (Value.obj (insertAtMembers v path members)).at? other = (Value.obj members).at? other := by
  induction path generalizing members other with
  | nil => exact absurd List.nil_prefix hpath
  | cons name path ih =>
    cases other with
    | nil => exact absurd List.nil_prefix hother
    | cons first behind =>
      rw [Value.at?, Value.at?, Value.member?, Value.member?]
      by_cases hfirst : first = name
      · subst hfirst
        rw [List.cons_prefix_cons, not_and] at hpath hother
        cases path with
        | nil => exact absurd List.nil_prefix (hpath rfl)
        | cons name' path =>
          rw [insertAtMembers_cons_cons]
          split
          · next hfound =>
            rw [Entries.find?_insert, if_pos rfl, hfound, Option.bind_some, ih (hpath rfl) (hother rfl)]
            cases behind with
            | nil => exact absurd List.nil_prefix (hother rfl)
            | cons => rfl
          · next inner hfound =>
            rw [Entries.find?_insert, if_pos rfl, hfound, Option.bind_some, ih (hpath rfl) (hother rfl)]
            rfl
          · rfl
      · rw [find?_insertAtMembers_of_ne hfirst]

theorem insertAtMembers_eq_self (hmembers : (Value.obj members).Ordered)
    (hv : (Value.obj members).at? path = some v) : insertAtMembers v path members = members := by
  induction path generalizing members with
  | nil => rfl
  | cons name path ih =>
    obtain ⟨w, hw, hrest⟩ := Option.bind_eq_some_iff.1 hv
    cases path with
    | nil =>
      cases hrest
      exact (Value.ordered_obj_iff.1 hmembers).1.insert_eq_self hw
    | cons name' path =>
      obtain ⟨inner, rfl⟩ := Value.exists_eq_obj_of_at? hrest
      have hfound : Entries.find? name members = some (.obj inner) := hw
      rw [insertAtMembers_cons_cons]
      simp only [hfound, ih (hmembers.of_member? hw) hrest]
      exact (Value.ordered_obj_iff.1 hmembers).1.insert_eq_self hfound

theorem ordered_insertAtMembers (hmembers : (Value.obj members).Ordered) (hv : v.Ordered)
    (path : List String) : (Value.obj (insertAtMembers v path members)).Ordered := by
  induction path generalizing members with
  | nil => exact hmembers
  | cons name path ih =>
    cases path with
    | nil => exact hmembers.insert hv name
    | cons name' path =>
      rw [insertAtMembers_cons_cons]
      split
      · exact hmembers.insert (ih (Value.ordered_obj_iff.2 ⟨List.Pairwise.nil, nofun⟩)) name
      · next hfound => exact hmembers.insert (ih (hmembers.of_member? hfound)) name
      · exact hmembers

/-! ### Items -/

namespace Item

theorem toValue_injective : Function.Injective toValue := by
  intro item item' h
  obtain ⟨entries, _⟩ := item
  cases h
  rfl

theorem at?_toValue (hne : path ≠ []) (item : Item) : item.toValue.at? path = item.at? path := by
  cases path with
  | nil => exact absurd rfl hne
  | cons => rfl

theorem at?_append (hne : path ≠ []) (item : Item) (rest : List String) :
    item.at? (path ++ rest) = (item.at? path).bind (·.at? rest) := by
  rw [← at?_toValue (List.append_ne_nil_of_left_ne_nil hne rest), Value.at?_append, at?_toValue hne]

theorem ne_nil_of_at? (h : item.at? path = some v) : path ≠ [] := by
  rintro rfl
  cases h

/-- Only objects have something below them. -/
theorem exists_at?_eq_obj (hne : path ≠ []) (h : item.at? (path ++ name :: rest) = some v) :
    ∃ members, item.at? path = some (.obj members) := by
  rw [at?_append hne] at h
  obtain ⟨w, hw, hbelow⟩ := Option.bind_eq_some_iff.1 h
  obtain ⟨members, rfl⟩ := Value.exists_eq_obj_of_at? hbelow
  exact ⟨members, hw⟩

theorem toValue_insertAt (item : Item) (v : Value) (path : List String) :
    (item.insertAt v path).toValue = .obj (insertAtMembers v path item.entries) := by
  match path with
  | [] => rfl
  | [name] => rfl
  | name :: name' :: rest =>
    rw [insertAt, insertAtMembers_cons_cons, OrderedMap.get?]
    · cases Entries.find? name item.entries with
      | none => rfl
      | some w => cases w <;> rfl
    · nofun

/-- The way is clear to the end of the path. -/
def Clear (item : Item) (path : List String) : Prop := DocumentStore.Clear item.entries path

/-- Where the way is clear, a value that is set is found, and everything in it. -/
theorem at?_insertAt_append (hne : path ≠ []) (hclear : item.Clear path) (v : Value) (rest : List String) :
    (item.insertAt v path).at? (path ++ rest) = v.at? rest := by
  rw [← at?_toValue (List.append_ne_nil_of_left_ne_nil hne rest), toValue_insertAt,
    at?_insertAtMembers_append hne hclear]

/-- Objects stand on the way to it. -/
theorem exists_at?_insertAt_eq_obj (hclear : item.Clear (path ++ name :: rest)) (hne : path ≠ []) (v : Value) :
    ∃ members, (item.insertAt v (path ++ name :: rest)).at? path = some (.obj members) := by
  have hend := at?_insertAt_append (List.append_ne_nil_of_left_ne_nil hne _) hclear v []
  rw [List.append_nil] at hend
  exact exists_at?_eq_obj hne hend

/-- Paths that part from it lead to what they led to. -/
theorem at?_insertAt_apart (hpath : ¬path <+: other) (hother : ¬other <+: path) (v : Value) (item : Item) :
    (item.insertAt v path).at? other = item.at? other := by
  have hne : other ≠ [] := by
    rintro rfl
    exact hother List.nil_prefix
  rw [← at?_toValue hne, ← at?_toValue hne, toValue_insertAt, at?_insertAtMembers_apart hpath hother]
  rfl

/-- To set what is there already changes nothing. -/
theorem insertAt_eq_self (hitem : item.toValue.Ordered) (hv : item.at? path = some v) :
    item.insertAt v path = item := by
  apply toValue_injective
  rw [toValue_insertAt, insertAtMembers_eq_self hitem ((at?_toValue (ne_nil_of_at? hv) item).trans hv)]
  rfl

theorem ordered_insertAt (hitem : item.toValue.Ordered) (hv : v.Ordered) (path : List String) :
    (item.insertAt v path).toValue.Ordered := by
  rw [toValue_insertAt]
  exact ordered_insertAtMembers hitem hv path

end Item
end DocumentStore
