import DocumentStore.Proofs.Filter.NestedPaths
import DocumentStore.Proofs.Store.Insertion
import DocumentStore.Proofs.Store.KeyRows
import Mathlib.Data.List.Infix

/-! What a projection shows of an item.

A row shows fields of an item if it has at the target of each what the item has at its source, and besides
that objects on the way there alone (`Item.Shows`). There is no other such row (`Item.Shows.unique`), and
none at all if two fields want different things at one place; otherwise each step of a projection shows one
field more (`Item.Shows.withField`), and so the projection shows them all (`Item.shows_project`). For paths
that are put where they are taken from this makes the projection a part of the item that depends on what is
listed alone (`Item.project_restricts`). All of this is about items with their members in key order, as they
are read (`Json.ordered_of_read?`). -/
namespace DocumentStore
open Json (Value)

namespace Item

variable {item row row' : Item} {field : String} {fields path : List String} {v : Value}

/-- The path a field is taken from. -/
def source (field : String) : List String := (fieldPaths field).1

/-- The path it is put at. -/
def target (field : String) : List String := (fieldPaths field).2

theorem dotted_ne_nil (path : String) : dotted path ≠ [] := by
  obtain ⟨name, rest, h⟩ := exists_dotted_eq path
  rw [h]
  exact List.cons_ne_nil _ _

theorem source_ne_nil (field : String) : source field ≠ [] := by
  unfold source fieldPaths
  split <;> apply dotted_ne_nil

theorem target_ne_nil (field : String) : target field ≠ [] := by
  unfold target fieldPaths
  split <;> apply dotted_ne_nil

/-- What fields of an item can put at a path of a row: what is at their targets or below, and objects on the
way to the targets of those that the item has. -/
def MayShow (item : Item) (fields : List String) (path : List String) (v : Value) : Prop :=
  (∃ field ∈ fields, ∃ rest, path = target field ++ rest ∧ item.at? (source field ++ rest) = some v) ∨
  (∃ members, v = .obj members) ∧
    ∃ field ∈ fields, ∃ name rest, target field = path ++ name :: rest ∧ ∃ w, item.at? (source field) = some w

/-- The row has the fields of the item, and nothing else. -/
structure Shows (item : Item) (fields : List String) (row : Item) : Prop where
  found : ∀ field ∈ fields, row.at? (target field) = item.at? (source field)
  within : ∀ path v, row.at? path = some v → item.MayShow fields path v

theorem MayShow.mono {more : List String} (h : item.MayShow fields path v) (hsub : fields ⊆ more) :
    item.MayShow more path v := by
  obtain ⟨field, hfield, h⟩ | ⟨hobj, field, hfield, h⟩ := h
  · exact .inl ⟨field, hsub hfield, h⟩
  · exact .inr ⟨hobj, field, hsub hfield, h⟩

/-- Only what is listed matters. -/
theorem Shows.congr {fields' : List String} (h : item.Shows fields row) (hmem : ∀ f, f ∈ fields' ↔ f ∈ fields) :
    item.Shows fields' row where
  found field hfield := h.found field ((hmem field).1 hfield)
  within path v hv := (h.within path v hv).mono fun field hfield => (hmem field).2 hfield

/-- Where the target of a field is at that of another one or below, so is its source. -/
def Unambiguous (fields : List String) : Prop :=
  ∀ field ∈ fields, ∀ other ∈ fields, ∀ rest, target other = target field ++ rest →
    source other = source field ++ rest

/-! ### No two rows show the same -/

theorem Shows.at?_below (h : item.Shows fields row) (hfield : field ∈ fields) (rest : List String) :
    row.at? (target field ++ rest) = item.at? (source field ++ rest) := by
  rw [at?_append (target_ne_nil field), at?_append (source_ne_nil field), h.found field hfield]

/-- Where one row has something, another one that shows the same has the same, or both have an object. -/
theorem Shows.at?_eq_or_obj (h : item.Shows fields row) (h' : item.Shows fields row')
    (hv : row.at? path = some v) :
    row'.at? path = some v ∨
      (∃ members, v = .obj members) ∧ ∃ members, row'.at? path = some (.obj members) := by
  obtain ⟨field, hfield, rest, rfl, hitem⟩ | ⟨hobj, field, hfield, name, rest, htarget, w, hw⟩ :=
    h.within path v hv
  · exact .inl ((h'.at?_below hfield rest).trans hitem)
  · have hend := (h'.found field hfield).trans hw
    rw [htarget] at hend
    exact .inr ⟨hobj, exists_at?_eq_obj (ne_nil_of_at? hv) hend⟩

theorem Shows.unique (h : item.Shows fields row) (h' : item.Shows fields row')
    (hrow : row.toValue.Ordered) (hrow' : row'.toValue.Ordered) : row = row' := by
  apply toValue_injective
  apply Value.eq_of_alike hrow hrow'
  intro path
  cases path with
  | nil => exact .inr ⟨⟨_, rfl⟩, _, rfl⟩
  | cons name rest =>
    rw [at?_toValue (List.cons_ne_nil _ _), at?_toValue (List.cons_ne_nil _ _)]
    cases hv : row.at? (name :: rest) with
    | some v =>
      obtain hv' | ⟨⟨members, rfl⟩, members', hv'⟩ := h.at?_eq_or_obj h' hv
      · exact .inl hv'.symm
      · exact .inr ⟨⟨members, rfl⟩, members', hv'⟩
    | none =>
      refine .inl (Option.eq_none_iff_forall_ne_some.2 fun w hw => ?_).symm
      obtain hv' | ⟨-, members, hv'⟩ := h'.at?_eq_or_obj h hw
      · rw [hv] at hv'
        cases hv'
      · rw [hv] at hv'
        cases hv'

/-! ### One field more -/

theorem Unambiguous.mono {more : List String} (h : Unambiguous more) (hsub : fields ⊆ more) :
    Unambiguous fields :=
  fun field hfield other hother => h field (hsub hfield) other (hsub hother)

theorem withField_of_some (hv : item.at? (source field) = some v) (row : Item) :
    item.withField row field = row.insertAt v (target field) := by
  unfold source at hv
  simp only [withField, hv]
  rfl

theorem withField_of_none (hv : item.at? (source field) = none) (row : Item) :
    item.withField row field = row := by
  unfold source at hv
  simp only [withField, hv]

theorem ordered_withField (hitem : item.toValue.Ordered) (hrow : row.toValue.Ordered) (field : String) :
    (item.withField row field).toValue.Ordered := by
  cases hv : item.at? (source field) with
  | none => rwa [withField_of_none hv]
  | some v =>
    rw [withField_of_some hv]
    apply ordered_insertAt hrow
    exact hitem.of_at? ((at?_toValue (source_ne_nil field) item).trans hv)

section Step
variable {done : List String} (hdone : item.Shows done row) (hfields : Unambiguous (done ++ [field]))
include hdone hfields

/-- What the item has at the source of a field has objects alone on its way into the row. -/
theorem Shows.clear (hv : item.at? (source field) = some v) : row.Clear (target field) := by
  intro front name rest htarget w hw
  cases front with
  | nil => exact ⟨_, (Option.some.inj hw).symm⟩
  | cons first behind =>
    obtain ⟨other, hother, more, hfront, hitem⟩ | ⟨hobj, -⟩ := hdone.within (first :: behind) w hw
    · have hsource := hfields other (List.mem_append_left _ hother) field (by simp) (more ++ name :: rest)
        (by rw [htarget, hfront, List.append_assoc])
      rw [hsource, ← List.append_assoc, at?_append (List.append_ne_nil_of_left_ne_nil (source_ne_nil other) _),
        hitem] at hv
      exact Value.exists_eq_obj_of_at? hv
    · exact hobj

/-- A field that the item lacks is shown already. -/
theorem Shows.of_none (hv : item.at? (source field) = none) : item.Shows (done ++ [field]) row where
  found other hother := by
    obtain hother | hother := List.mem_append.1 hother
    · exact hdone.found other hother
    · obtain rfl := List.mem_singleton.1 hother
      rw [hv]
      refine Option.eq_none_iff_forall_ne_some.2 fun w hw => ?_
      obtain ⟨other', hother', rest, htarget, hitem⟩ | ⟨-, other', hother', name, rest, htarget, u, hu⟩ :=
        hdone.within _ w hw
      · rw [← hfields other' (List.mem_append_left _ hother') other (by simp) rest htarget, hv] at hitem
        cases hitem
      · rw [hfields other (by simp) other' (List.mem_append_left _ hother') _ htarget,
          at?_append (source_ne_nil other), hv] at hu
        cases hu
  within path v hv := (hdone.within path v hv).mono (List.subset_append_left _ _)

/-- Once a value that the item has is put at its target, all fields are found. -/
theorem Shows.found_insertAt (hrow : row.toValue.Ordered) (hv : item.at? (source field) = some v)
    {other : String} (hother : other ∈ done ++ [field]) :
    (row.insertAt v (target field)).at? (target other) = item.at? (source other) := by
  have hclear := hdone.clear hfields hv
  by_cases hbelow : target field <+: target other
  · obtain ⟨rest, hrest⟩ := hbelow
    rw [← hrest, at?_insertAt_append (target_ne_nil field) hclear,
      hfields field (by simp) other hother rest hrest.symm, at?_append (source_ne_nil field), hv, Option.bind_some]
  · obtain hother | hother := List.mem_append.1 hother
    · by_cases haround : target other <+: target field
      · -- The value is part of what is there: setting it must not touch the rest.
        obtain ⟨rest, hrest⟩ := haround
        have hthere : row.at? (target field) = some v := by
          rw [← hrest, hdone.at?_below hother, ← hv,
            hfields other (List.mem_append_left _ hother) field (by simp) rest hrest.symm]
        rw [insertAt_eq_self hrow hthere, hdone.found other hother]
      · rw [at?_insertAt_apart hbelow haround, hdone.found other hother]
    · obtain rfl := List.mem_singleton.1 hother
      exact absurd (List.prefix_refl _) hbelow

/-- It puts nothing there but itself, and objects on its way. -/
theorem Shows.mayShow_insertAt (hv : item.at? (source field) = some v) {w : Value}
    (hw : (row.insertAt v (target field)).at? path = some w) : item.MayShow (done ++ [field]) path w := by
  have hclear := hdone.clear hfields hv
  have hself : field ∈ done ++ [field] := by simp
  by_cases hbelow : target field <+: path
  · obtain ⟨rest, rfl⟩ := hbelow
    rw [at?_insertAt_append (target_ne_nil field) hclear] at hw
    exact .inl ⟨field, hself, rest, rfl, by rw [at?_append (source_ne_nil field), hv, Option.bind_some, hw]⟩
  · by_cases honWay : path <+: target field
    · obtain ⟨rest, htarget⟩ := honWay
      cases rest with
      | nil =>
        rw [List.append_nil] at htarget
        exact absurd (htarget ▸ List.prefix_refl path) hbelow
      | cons name rest =>
        rw [← htarget] at hclear hw
        obtain ⟨members, hmembers⟩ := exists_at?_insertAt_eq_obj hclear (ne_nil_of_at? hw) v
        rw [hw, Option.some.injEq] at hmembers
        exact .inr ⟨⟨members, hmembers⟩, field, hself, name, rest, htarget.symm, v, hv⟩
    · rw [at?_insertAt_apart hbelow honWay] at hw
      exact (hdone.within path w hw).mono (List.subset_append_left _ _)

/-- Each step of a projection shows one field more. -/
theorem Shows.withField (hrow : row.toValue.Ordered) :
    item.Shows (done ++ [field]) (item.withField row field) := by
  cases hv : item.at? (source field) with
  | none =>
    rw [withField_of_none hv]
    exact hdone.of_none hfields hv
  | some v =>
    rw [withField_of_some hv]
    exact ⟨fun _ hother => hdone.found_insertAt hfields hrow hv hother,
      fun _ _ hw => hdone.mayShow_insertAt hfields hv hw⟩

end Step

/-! ### All fields -/

theorem shows_nil (item : Item) : item.Shows [] .empty where
  found := nofun
  within path v hv := by cases path <;> cases hv

theorem ordered_empty : (toValue .empty).Ordered := Value.ordered_obj_iff.2 ⟨List.Pairwise.nil, nofun⟩

theorem Shows.foldl {done : List String} (hitem : item.toValue.Ordered) (hdone : item.Shows done row)
    (hrow : row.toValue.Ordered) (hfields : Unambiguous (done ++ fields)) :
    item.Shows (done ++ fields) (fields.foldl item.withField row) := by
  induction fields generalizing done row with
  | nil => rwa [List.append_nil]
  | cons field rest ih =>
    have hassoc : done ++ field :: rest = done ++ [field] ++ rest := by simp
    have hstep : Unambiguous (done ++ [field]) := hfields.mono (by rw [hassoc]; exact List.subset_append_left _ _)
    rw [hassoc] at hfields ⊢
    exact ih (hdone.withField hstep hrow) (ordered_withField hitem hrow field) hfields

/-- A projection shows its fields, unless two of them want different things at one place. -/
theorem shows_project (hitem : item.toValue.Ordered) (hne : fields ≠ [])
    (hwildcard : ∀ field ∈ fields, '*' ∉ field.toList) (hfields : Unambiguous fields) :
    item.Shows fields (item.project fields) := by
  rw [project_eq_foldl hne hwildcard]
  exact (shows_nil item).foldl hitem ordered_empty hfields

theorem ordered_foldl_withField (hitem : item.toValue.Ordered) (hrow : row.toValue.Ordered)
    (fields : List String) : (fields.foldl item.withField row).toValue.Ordered := by
  induction fields generalizing row with
  | nil => exact hrow
  | cons field rest ih => exact ih (ordered_withField hitem hrow field)

/-- Projections of items in key order are in key order. -/
theorem ordered_project (hitem : item.toValue.Ordered) (fields : List String) :
    (item.project fields).toValue.Ordered := by
  unfold project
  split
  · exact hitem
  · exact ordered_foldl_withField hitem ordered_empty fields

/-! ### Paths put where they are taken from -/

/-- The field is a path and nothing else: it does not ask for the whole item, nor for another name. -/
structure IsPath (field : String) : Prop where
  noWildcard : '*' ∉ field.toList
  noMarker : ¬" AS ".toList <:+: field.toList

instance (field : String) : Decidable (IsPath field) :=
  decidable_of_iff ('*' ∉ field.toList ∧ ¬" AS ".toList <:+: field.toList)
    ⟨fun h => ⟨h.1, h.2⟩, fun h => ⟨h.noWildcard, h.noMarker⟩⟩

theorem IsPath.fieldPaths (h : IsPath field) : fieldPaths field = (dotted field, dotted field) := by
  rw [Item.fieldPaths, Text.cut?_eq_none h.noMarker]

theorem IsPath.source (h : IsPath field) : source field = dotted field := congrArg Prod.fst h.fieldPaths

theorem IsPath.target (h : IsPath field) : target field = dotted field := congrArg Prod.snd h.fieldPaths

theorem unambiguous_of_isPath (h : ∀ field ∈ fields, IsPath field) : Unambiguous fields := by
  intro field hfield other hother rest htarget
  rwa [(h field hfield).source, (h other hother).source, ← (h field hfield).target, ← (h other hother).target]

/-- A row that shows paths has what the item has there. -/
theorem Shows.lookup? (h : item.Shows fields row) (hpaths : ∀ field ∈ fields, IsPath field)
    (hfield : field ∈ fields) : row.lookup? field = item.lookup? field := by
  have hfound := h.found field hfield
  rwa [(hpaths field hfield).target, (hpaths field hfield).source] at hfound

/-- It is a part of the item, all of it on the way to one of the paths, or below. -/
theorem Shows.part (h : item.Shows fields row) (hpaths : ∀ field ∈ fields, IsPath field)
    (hv : row.at? path = some v) :
    item.at? path = some v ∧ (∃ field ∈ fields, dotted field <+: path) ∨
    (∃ members, v = .obj members) ∧ (∃ members, item.at? path = some (.obj members)) ∧
      ∃ field ∈ fields, path <+: dotted field ∧ (item.lookup? field).isSome := by
  obtain ⟨field, hfield, rest, rfl, hitem⟩ | ⟨hobj, field, hfield, name, rest, htarget, w, hw⟩ :=
    h.within path v hv
  · rw [(hpaths field hfield).source] at hitem
    rw [(hpaths field hfield).target]
    exact .inl ⟨hitem, field, hfield, List.prefix_append ..⟩
  · rw [(hpaths field hfield).target] at htarget
    rw [(hpaths field hfield).source] at hw
    refine .inr ⟨hobj, ?_, field, hfield, ⟨_, htarget.symm⟩, Option.isSome_of_eq_some hw⟩
    rw [htarget] at hw
    exact exists_at?_eq_obj (ne_nil_of_at? hv) hw

/-- It shows the same paths of itself. -/
theorem Shows.self (h : item.Shows fields row) (hpaths : ∀ field ∈ fields, IsPath field) :
    row.Shows fields row where
  found field hfield := by rw [(hpaths field hfield).target, (hpaths field hfield).source]
  within path v hv := by
    obtain ⟨field, hfield, rest, rfl, -⟩ | ⟨hobj, field, hfield, name, rest, htarget, w, hw⟩ :=
      h.within path v hv
    · refine .inl ⟨field, hfield, rest, rfl, ?_⟩
      rwa [(hpaths field hfield).target, ← (hpaths field hfield).source] at hv
    · refine .inr ⟨hobj, field, hfield, name, rest, htarget, w, ?_⟩
      rw [← hw, ← h.found field hfield, (hpaths field hfield).target, (hpaths field hfield).source]

theorem shows_project_of_isPath (hitem : item.toValue.Ordered) (hne : fields ≠ [])
    (hpaths : ∀ field ∈ fields, IsPath field) : item.Shows fields (item.project fields) :=
  shows_project hitem hne (fun field hfield => (hpaths field hfield).noWildcard) (unambiguous_of_isPath hpaths)

/-- A row that shows paths is the projection to them. -/
theorem Shows.project_eq (h : item.Shows fields row) (hitem : item.toValue.Ordered)
    (hrow : row.toValue.Ordered) (hne : fields ≠ []) (hpaths : ∀ field ∈ fields, IsPath field) :
    item.project fields = row :=
  (shows_project_of_isPath hitem hne hpaths).unique h (ordered_project hitem fields) hrow

/-- **What a projection to paths is.** It has what the item has at each of them, or nothing if that has
nothing there. All in it is in the item, below one of the paths, or an object on the way to one. Neither order
nor repetition of the paths matters, and to project again changes nothing. -/
theorem project_restricts (hitem : item.toValue.Ordered) (hne : fields ≠ [])
    (hpaths : ∀ field ∈ fields, IsPath field) :
    (∀ field ∈ fields, (item.project fields).lookup? field = item.lookup? field) ∧
    (∀ path v, (item.project fields).at? path = some v →
      item.at? path = some v ∧ (∃ field ∈ fields, dotted field <+: path) ∨
      (∃ members, v = .obj members) ∧ (∃ members, item.at? path = some (.obj members)) ∧
        ∃ field ∈ fields, path <+: dotted field ∧ (item.lookup? field).isSome) ∧
    (∀ fields', (∀ field, field ∈ fields' ↔ field ∈ fields) → item.project fields' = item.project fields) ∧
    (item.project fields).project fields = item.project fields := by
  have hrow := ordered_project hitem fields
  have hshows := shows_project_of_isPath hitem hne hpaths
  refine ⟨fun field hfield => hshows.lookup? hpaths hfield, fun path v hv => hshows.part hpaths hv, ?_, ?_⟩
  · intro fields' hmem
    obtain ⟨field, hfield⟩ := List.exists_mem_of_ne_nil fields hne
    apply (hshows.congr hmem).project_eq hitem hrow
    · exact List.ne_nil_of_mem ((hmem field).2 hfield)
    · exact fun field hfield => hpaths field ((hmem field).1 hfield)
  · exact (hshows.self hpaths).project_eq hrow hrow hne hpaths

/-- A tenant with an address that has parts. -/
def tenant : Item :=
  .ofList [("id", .str "a"),
    ("home", .obj [("city", .obj [("name", .str "x"), ("zip", .str "1")]), ("street", .null)])]

theorem project_restricts_overlapping :
    let fields := ["home.city.zip", "home.city", "id", "id.first", "home.city.zip"]
    tenant.toValue.Ordered ∧ (∀ field ∈ fields, IsPath field) ∧
    tenant.project fields =
      .ofList [("id", .str "a"), ("home", .obj [("city", .obj [("name", .str "x"), ("zip", .str "1")])])] ∧
    tenant.project ["id.first", "id", "home.city", "home.city.zip"] = tenant.project fields ∧
    (tenant.project fields).project fields = tenant.project fields := by
  intro fields
  have hitem : tenant.toValue.Ordered := Json.ordered_of_read? (s := tenant.toValue.text) (by decide +kernel)
  have hpaths : ∀ field ∈ fields, IsPath field := by decide +kernel
  obtain ⟨-, -, horder, hagain⟩ := project_restricts hitem (List.cons_ne_nil _ _) hpaths
  exact ⟨hitem, hpaths, toValue_injective (by decide +kernel), horder _ (by grind), hagain⟩

end Item
end DocumentStore
