import DocumentStore.Proofs.Filter.Renaming

/-! Paths into items whose attributes are renamed.

Renaming an item moves its own attributes and nothing inside them; renaming a leaf changes its last name,
whatever stands above it. So a path leads to the same value in every renamed item exactly if its first name
becomes the stored one and the names behind it stay (`Aliases.OneToOne.lookup?_storedItem_iff`): below an
attribute, if neither that attribute nor the leaf is renamed. -/
namespace DocumentStore
open Json (Value)
open Item (dotted)

/-! ### Paths as lists of names -/

theorem Text.segments_append (sep : Char) (xs ys : List Char) :
    segments sep (xs ++ sep :: ys) = segments sep xs ++ segments sep ys := by
  induction xs with
  | nil => simp [segments]
  | cons c rest ih =>
    rw [List.cons_append, segments, segments, ih]
    split
    · rfl
    · cases hrest : segments sep rest with
      | nil => exact absurd hrest (segments_ne_nil sep rest)
      | cons first others => rfl

theorem Text.split_append (sep : Char) (s t : String) :
    split sep (s ++ String.singleton sep ++ t) = split sep s ++ split sep t := by
  simp [split, segments_append]

theorem Text.split_injective (sep : Char) : Function.Injective (split sep) := by
  intro s t h
  have hsegments := List.map_injective_iff.2 (fun _ _ => String.ofList_injective) h
  have htoList := congrArg (join sep) hsegments
  rwa [join_segments, join_segments, String.toList_inj] at htoList

theorem Item.exists_dotted_eq (path : String) : ∃ name rest, dotted path = name :: rest :=
  List.exists_cons_of_ne_nil fun h => Text.segments_ne_nil _ _ (List.map_eq_nil_iff.1 h)

/-- True at the end of a path, and no other member on the way. -/
def Json.Value.atEnd : List String → Value
  | [] => bool true
  | name :: rest => obj [(name, atEnd rest)]

/-- Of all paths the one to its end alone leads to what stands there. -/
theorem Json.Value.at?_atEnd_iff {names path : List String} :
    (atEnd path).at? names = some (bool true) ↔ names = path := by
  induction path generalizing names with
  | nil => cases names <;> simp [atEnd, at?, member?]
  | cons name rest ih =>
    cases names with
    | nil => simp [atEnd, at?]
    | cons name' rest' =>
      by_cases h : name' = name
      · simp [atEnd, at?, member?, Entries.find?_cons, h, ih]
      · simp [atEnd, at?, member?, Entries.find?_cons, h]

/-- The item that has a value at the end of one path, and nothing else. -/
def Item.along (name : String) (rest : List String) : Item := .ofList [(name, .atEnd rest)]

theorem Item.get?_along (name : String) (rest : List String) (other : String) :
    (along name rest).get? other = if other = name then some (.atEnd rest) else none := by
  rw [along, OrderedMap.get?_ofList]
  rfl

theorem Item.at?_along_iff {name name' : String} {rest rest' : List String} :
    (along name rest).at? (name' :: rest') = some (.bool true) ↔ name' = name ∧ rest' = rest := by
  rw [at?, get?_along]
  by_cases h : name' = name
  · simp [h, Value.at?_atEnd_iff]
  · simp [h]

namespace Aliases

variable {a : Aliases} {item : Item}

/-! ### Where a stored name comes from -/

/-- The attribute that a name of stored items stands for, where it stands for one; in a table that is
one-to-one, where it is the same by whatever draw. -/
def source? (a : Aliases) (name : String) : Option String :=
  ((a.toExternal .byKey).get? name).or (if a.toStored.contains name then none else some name)

theorem OneToOne.source?_eq_none_iff (h : a.OneToOne) {name : String} :
    a.source? name = none ↔ a.OnlyExternal name := by
  have hcontains : a.toStored.contains name = true ↔
      ∃ stored, (a.toExternal .byKey).get? stored = some name := by
    rw [OrderedMap.contains_iff]
    exact exists_congr fun stored => (h.inverse .byKey name stored).symm
  rw [h.onlyExternal_iff_onlyNew .byKey, source?, Option.or_eq_none_iff, OnlyNew, ← hcontains, and_comm]
  simp

/-- An external name is found again under the stored one. -/
theorem OneToOne.source?_storedName (h : a.OneToOne) {name : String} (hname : ¬OnlyNew a.toStored name) :
    a.source? (a.storedName name) = some name := by
  unfold source? storedName rename
  cases hstored : a.toStored.get? name with
  | some stored =>
    rw [Option.getD_some, (h.inverse .byKey name stored).2 hstored]
    rfl
  | none =>
    have hfree : (a.toExternal .byKey).get? name = none := by
      refine Option.eq_none_iff_forall_ne_some.2 fun external hexternal => hname ⟨⟨external, ?_⟩, hstored⟩
      exact (h.inverse .byKey external name).1 hexternal
    rw [Option.getD_none, hfree, OrderedMap.contains, hstored]
    rfl

theorem OneToOne.of_source? (h : a.OneToOne) {stored name : String} (hsource : a.source? stored = some name) :
    stored = a.storedName name ∧ ¬OnlyNew a.toStored name := by
  unfold source? at hsource
  cases hexternal : (a.toExternal .byKey).get? stored with
  | some external =>
    rw [hexternal] at hsource
    obtain rfl : external = name := Option.some.inj hsource
    have hstored := (h.inverse .byKey external stored).1 hexternal
    simp [storedName, rename, hstored, OnlyNew]
  | none =>
    rw [hexternal, Option.none_or] at hsource
    split at hsource
    · cases hsource
    · next hkept =>
      obtain rfl := Option.some.inj hsource
      have hnone : a.toStored.get? stored = none := Option.not_isSome_iff_eq_none.1 hkept
      refine ⟨by rw [storedName, rename, hnone, Option.getD_none], fun hnew => ?_⟩
      obtain ⟨old, hold⟩ := hnew.1
      rw [(h.inverse .byKey old stored).2 hold] at hexternal
      cases hexternal

/-- A stored item has under a name what the item has under the attribute that the name stands for. -/
theorem OneToOne.get?_storedItem_eq (h : a.OneToOne) (hitem : a.KeepsToExternal item) (name : String) :
    (a.storedItem item).get? name = (a.source? name).bind item.get? := by
  cases hsource : a.source? name with
  | some external =>
    obtain ⟨rfl, hexternal⟩ := h.of_source? hsource
    exact h.get?_storedItem hitem hexternal
  | none =>
    have hexternal := h.source?_eq_none_iff.1 hsource
    have hnone := ((h.onlyExternal_iff_onlyNew .byKey).1 hexternal).2
    rw [storedItem, (h.inverse .byKey).get?_renameItem_kept hnone,
      if_pos (OrderedMap.contains_iff.2 hexternal.1)]
    rfl

/-! ### Paths that lead to the same values -/

theorem keepsToExternal_along {name : String} (hname : ¬OnlyNew a.toStored name) (rest : List String) :
    a.KeepsToExternal (.along name rest) := by
  intro other hother
  rw [Item.get?_along, if_neg]
  rintro rfl
  exact hname hother

/-- The second path leads into stored items as the first leads into external ones: its first name is the
stored one, and the names behind it are the same. A first name that is only a stored one leads nowhere in
external items, as one that is only an external one does in stored items. -/
def Leads (a : Aliases) : List String → List String → Prop
  | name :: rest, name' :: rest' =>
    if OnlyNew a.toStored name then a.OnlyExternal name'
    else name' = a.storedName name ∧ rest' = rest
  | _, _ => False

instance {names names' : List String} : Decidable (a.Leads names names') :=
  match names, names' with
  | name :: rest, name' :: rest' => inferInstanceAs <| Decidable <|
    if OnlyNew a.toStored name then a.OnlyExternal name'
    else name' = a.storedName name ∧ rest' = rest
  | [], _ | _ :: _, [] => isFalse id

theorem OneToOne.at?_storedItem_iff (h : a.OneToOne) (name name' : String) (rest rest' : List String) :
    (∀ item, a.KeepsToExternal item →
      (a.storedItem item).at? (name' :: rest') = item.at? (name :: rest)) ↔
        a.Leads (name :: rest) (name' :: rest') := by
  have hat (item : Item) (hitem : a.KeepsToExternal item) : (a.storedItem item).at? (name' :: rest') =
      (a.source? name').bind fun external => item.at? (external :: rest') := by
    rw [Item.at?, h.get?_storedItem_eq hitem]
    cases a.source? name' <;> rfl
  by_cases hname : OnlyNew a.toStored name
  · have hnowhere (item : Item) (hitem : a.KeepsToExternal item) : item.at? (name :: rest) = none := by
      rw [Item.at?, hitem name hname]
      rfl
    rw [Leads, if_pos hname]
    constructor
    · intro hsame
      refine h.source?_eq_none_iff.1 (Option.eq_none_iff_forall_ne_some.2 fun external hsource => ?_)
      have halong := keepsToExternal_along (h.of_source? hsource).2 rest'
      have hfound := hsame _ halong
      rw [hat _ halong, hsource, hnowhere _ halong, Option.bind_some, Item.at?_along_iff.2 ⟨rfl, rfl⟩]
        at hfound
      cases hfound
    · intro hlost item hitem
      rw [hat item hitem, h.source?_eq_none_iff.2 hlost, hnowhere item hitem, Option.bind_none]
  · rw [Leads, if_neg hname]
    constructor
    · intro hsame
      have halong := keepsToExternal_along hname rest
      have hfound := hsame _ halong
      rw [hat _ halong, Item.at?_along_iff.2 ⟨rfl, rfl⟩, Option.bind_eq_some_iff] at hfound
      obtain ⟨external, hsource, hfound⟩ := hfound
      obtain ⟨rfl, rfl⟩ := Item.at?_along_iff.1 hfound
      exact ⟨(h.of_source? hsource).1, rfl⟩
    · rintro ⟨rfl, rfl⟩ item hitem
      rw [hat item hitem, h.source?_storedName hname, Option.bind_some]

/-- The leaf tests on stored names what it tested on external ones, in every item: without a parent if the
stored name of its attribute leads where the name led, and below a parent if neither the attribute nor the
outermost name of the parent is renamed. -/
def KeepsPath (a : Aliases) (l : Leaf) : Prop :=
  match l.parent with
  | none => a.Leads (dotted l.name) (dotted (a.storedName l.name))
  | some parent => a.storedName l.name = l.name ∧
      ∀ name ∈ (dotted parent).head?, a.storedName name = name ∧ ¬OnlyNew a.toStored name

instance {l : Leaf} : Decidable (a.KeepsPath l) :=
  match l with
  | { parent := none, .. } => inferInstanceAs (Decidable (a.Leads _ _))
  | { parent := some _, .. } => inferInstanceAs (Decidable (_ ∧ ∀ name ∈ _, _))

theorem keepsPath_iff (l : Leaf) :
    a.KeepsPath l ↔ a.Leads (dotted l.path) (dotted (l.renamed a.storedName).path) := by
  obtain ⟨op, name, operand, parent⟩ := l
  cases parent with
  | none => exact Iff.rfl
  | some parent =>
    have hbelow (last : String) : dotted (parent ++ "." ++ last) = dotted parent ++ dotted last :=
      Text.split_append '.' parent last
    obtain ⟨first, rest, hparent⟩ := Item.exists_dotted_eq parent
    show a.storedName name = name ∧ _ ↔ a.Leads (dotted (parent ++ "." ++ name))
      (dotted (parent ++ "." ++ a.storedName name))
    rw [hbelow, hbelow, hparent, List.cons_append, List.cons_append, Leads, List.head?_cons]
    by_cases hnew : OnlyNew a.toStored first
    · obtain ⟨external, hexternal⟩ := hnew.1
      have htaken : ¬a.OnlyExternal first := fun hold => hold.2 external hexternal
      simp [hnew, htaken]
    · have hlast : dotted (a.storedName name) = dotted name ↔ a.storedName name = name :=
        (Text.split_injective '.').eq_iff
      simp [hnew, hlast, and_comm, @eq_comm _ first]

/-- **A leaf on stored names finds in every stored item what the leaf on external names finds in the item,
exactly if its path is kept; and then it says of stored items what the leaf says of the items.** -/
theorem OneToOne.lookup?_storedItem_iff (h : a.OneToOne) (l : Leaf) :
    ((∀ item, a.KeepsToExternal item →
      (a.storedItem item).lookup? (l.renamed a.storedName).path = item.lookup? l.path) ↔
        a.KeepsPath l) ∧
    (a.KeepsPath l → ∀ item, a.KeepsToExternal item →
      (l.renamed a.storedName).holds (a.storedItem item) = l.holds item) := by
  have hlookup : (∀ item, a.KeepsToExternal item →
      (a.storedItem item).lookup? (l.renamed a.storedName).path = item.lookup? l.path) ↔
        a.KeepsPath l := by
    obtain ⟨name, rest, hpath⟩ := Item.exists_dotted_eq l.path
    obtain ⟨name', rest', hpath'⟩ := Item.exists_dotted_eq (l.renamed a.storedName).path
    unfold Item.lookup?
    rw [keepsPath_iff, hpath, hpath', h.at?_storedItem_iff]
  refine ⟨hlookup, fun hkept item hitem => ?_⟩
  unfold Leaf.holds
  rw [hlookup.2 hkept item hitem]
  rfl

/-- Addresses are stored under another name, and so are the codes in them where a leaf names both; `zip`
and `home` are stored under other names by themselves. -/
def addresses : Aliases :=
  .ofList [("address", "addr"), ("address.zip", "addr.zip"), ("home", "residence"), ("zip", "postcode")]

/-- A renamed path whose first name is renamed alike, and a name that no entry is about below one that no
entry is about. -/
theorem exists_keptPath :
    (addresses.storedItem (.ofList [("address", .obj [("zip", .str "1")])])).lookup? "addr.zip" =
      some (.str "1") ∧
    Leaf.holds { op := .eq, name := "city", operand := some (.string "x"), parent := some "work" }
      (addresses.storedItem (.ofList [("work", .obj [("city", .str "x")]), ("zip", .str "1")])) =
        .ok true := by
  have hzip := (OneToOne.lookup?_storedItem_iff (a := addresses) (by decide +kernel)
    { op := .eq, name := "address.zip", operand := some (.string "1") }).1.2 (by decide +kernel)
  have hcity := (OneToOne.lookup?_storedItem_iff (a := addresses) (by decide +kernel)
    { op := .eq, name := "city", operand := some (.string "x"), parent := some "work" }).2
      (by decide +kernel)
  exact ⟨(hzip _ (by decide +kernel)).trans rfl, (hcity _ (by decide +kernel)).trans rfl⟩

/-- Stored items keep what is in them under the names that it had, so a leaf that is renamed below an
attribute misses it, and what is below a renamed attribute is no longer where a leaf looks. -/
theorem exists_lostPath :
    let item : Item := .ofList [("home", .obj [("city", .str "x")]), ("work", .obj [("zip", .str "1")])]
    let code : Leaf := { op := .eq, name := "zip", operand := some (.string "1"), parent := some "work" }
    let city : Leaf := { op := .eq, name := "city", operand := some (.string "x"), parent := some "home" }
    let path : Leaf := { op := .eq, name := "home.city", operand := some (.string "x") }
    addresses.OneToOne ∧ addresses.KeepsMarker ∧ addresses.KeepsToExternal item ∧
      ∀ l ∈ [code, city, path], (item.lookup? l.path).isSome = true ∧
        (addresses.storedItem item).lookup? (l.renamed addresses.storedName).path = none := by
  decide +kernel

end Aliases
end DocumentStore
