import DocumentStore.Proofs.Aliases
import DocumentStore.Proofs.Criteria.Markers

/-! Criteria about items whose attributes are renamed.

The evaluator reads an item by the paths of leaves alone. So criteria on other names say of another item
what they said before, as long as each leaf finds there what it found before (`truth?_mapNames`). Renaming
an item moves each attribute to the name that its leaves are given, and whatever else the table moves, no
attribute gets in the way of another (`Aliases.OneToOne.get?_storedItem`). So a search on stored names
finds what a search on external names would (`Aliases.OneToOne.select_storedItem`). -/
namespace DocumentStore

/-! ### Top-level attributes -/

theorem Text.split_of_not_mem {sep : Char} {s : String} (h : sep ∉ s.toList) : split sep s = [s] := by
  have hsegments : ∀ cs : List Char, sep ∉ cs → segments sep cs = [cs] := by
    intro cs hcs
    induction cs with
    | nil => rfl
    | cons c rest ih =>
      obtain ⟨hc, hrest⟩ := not_or.1 fun hm => hcs (List.mem_cons.2 hm)
      rw [segments, if_neg (Ne.symm hc), ih hrest]
  rw [split, hsegments s.toList h, List.map_singleton, String.ofList_toList]

/-- A name without dots is a path to the attribute of that name. -/
theorem Item.lookup?_of_undotted {name : String} (h : '.' ∉ name.toList) (item : Item) :
    item.lookup? name = item.get? name := by
  rw [lookup?, dotted, Text.split_of_not_mem h, at?]
  exact Option.bind_fun_some _

/-! ### Criteria on other names -/

variable {f : String → String} {item item' : Item}

/-- The leaf stays a marker or none on the other name, and finds in the second item under that name what
it finds in the first. -/
structure Leaf.Follows (f : String → String) (item item' : Item) (l : Leaf) : Prop where
  marker : (l.renamed f).isMarker = l.isMarker
  lookup : item'.lookup? (l.renamed f).path = item.lookup? l.path

theorem Leaf.Follows.holds_renamed {l : Leaf} (h : l.Follows f item item') :
    (l.renamed f).holds item' = l.holds item := by
  unfold Leaf.holds
  rw [h.lookup]
  rfl

namespace Criteria

/-- **Criteria on other names say of an item what they said before of another, if each of their leaves
finds what it found.** -/
theorem truth?_mapNames {c : Criteria} (h : ∀ l ∈ c.leaves, l.Follows f item item') :
    (c.mapNames f).truth? item' = c.truth? item := by
  induction c with
  | leaf l =>
    have hl := h l (List.mem_singleton_self l)
    show truth? item' (leaf (l.renamed f)) = _
    rw [truth?, truth?, hl.marker, hl.holds_renamed]
  | join op terms parent ih =>
    have hterms : ∀ t ∈ terms, (t.mapNames f).truth? item' = t.truth? item := fun t ht =>
      ih t ht fun l hl => h l (mem_leaves_join ht hl)
    clear ih h
    cases op with
    | and =>
      rw [mapNames, truth?, truth?]
      induction terms with
      | nil => rfl
      | cons t rest ih =>
        obtain ⟨ht, hrest⟩ := List.forall_mem_cons.1 hterms
        rw [mapAllNames, all?, all?, ht, ih hrest]
    | or =>
      rw [mapNames, truth?, truth?]
      induction terms with
      | nil => rfl
      | cons t rest ih =>
        obtain ⟨ht, hrest⟩ := List.forall_mem_cons.1 hterms
        rw [mapAllNames, any?, any?, ht, ih hrest]

/-- Criteria ask for soft-deleted items to be left out whatever their other leaves are renamed to. -/
theorem references_mapNames {a : Aliases} (ha : a.KeepsMarker) (c : Criteria) :
    (c.mapNames a.storedName).references Reserved.isDeleted = c.references Reserved.isDeleted := by
  rw [Bool.eq_iff_iff, references_iff, references_iff, leaves_mapNames]
  simp only [List.mem_map, exists_exists_and_eq_and]
  refine exists_congr fun l => and_congr_right fun _ => ?_
  exact ⟨ha.only l.name, fun hname => hname ▸ ha.stored⟩

end Criteria

/-! ### Alias tables -/

namespace Aliases

variable {a : Aliases}

/-- Every stored name that the table gives is the name of one attribute, and no path of several. -/
def StoresTopLevel (a : Aliases) : Prop := ∀ e ∈ a.toStored.entries, '.' ∉ e.2.toList

instance : Decidable a.StoresTopLevel :=
  inferInstanceAs (Decidable (∀ e ∈ a.toStored.entries, '.' ∉ e.2.toList))

theorem onlyNew_iff {table : OrderedMap String String} {name : String} :
    OnlyNew table name ↔ name ∈ table.values ∧ table.get? name = none := by
  refine and_congr_left' ?_
  rw [OrderedMap.values, List.mem_map]
  constructor
  · intro h
    obtain ⟨old, hold⟩ := h
    exact ⟨(old, name), OrderedMap.get?_eq_some_iff.1 hold, rfl⟩
  · intro h
    obtain ⟨e, he, rfl⟩ := h
    exact ⟨e.1, OrderedMap.get?_eq_some_iff.2 he⟩

instance {table : OrderedMap String String} {name : String} : Decidable (OnlyNew table name) :=
  decidable_of_iff _ onlyNew_iff.symm

/-- The item has no attribute under a name that is only a stored one. -/
def KeepsToExternal (a : Aliases) (item : Item) : Prop :=
  ∀ name, OnlyNew a.toStored name → item.get? name = none

instance : Decidable (a.KeepsToExternal item) :=
  decidable_of_iff (∀ name ∈ a.toStored.values, a.toStored.get? name = none → item.get? name = none) <| by
    simp only [KeepsToExternal, onlyNew_iff, and_imp]

/-- The leaf tests an attribute of the item itself, under a name that is not only a stored one. -/
structure Addresses (a : Aliases) (l : Leaf) : Prop where
  parent : l.parent = none
  undotted : '.' ∉ l.name.toList
  external : ¬OnlyNew a.toStored l.name

instance {l : Leaf} : Decidable (a.Addresses l) :=
  decidable_of_iff (l.parent = none ∧ '.' ∉ l.name.toList ∧ ¬OnlyNew a.toStored l.name)
    ⟨fun h => ⟨h.1, h.2.1, h.2.2⟩, fun h => ⟨h.parent, h.undotted, h.external⟩⟩

/-- **A renamed item has under the stored name of an attribute what the item has under its external
name.** A stored name that is the external name of another attribute does not get in the way, since that
attribute is moved as well. -/
theorem OneToOne.get?_storedItem (h : a.OneToOne) (hitem : a.KeepsToExternal item) {name : String}
    (hname : ¬OnlyNew a.toStored name) :
    (a.storedItem item).get? (a.storedName name) = item.get? name := by
  unfold storedName rename
  cases hstored : a.toStored.get? name with
  | some stored => exact (h.inverse .byKey).get?_renameItem_moved hitem hstored
  | none =>
    have hinverse := h.inverse .byKey
    have hfree : (a.toExternal .byKey).get? name = none := by
      refine Option.eq_none_iff_forall_ne_some.2 fun external hexternal => hname ⟨⟨external, ?_⟩, hstored⟩
      exact (hinverse external name).1 hexternal
    rw [Option.getD_none, storedItem, hinverse.get?_renameItem_kept hfree, OrderedMap.contains, hstored]
    rfl

theorem OneToOne.follows (h : a.OneToOne) (ha : a.KeepsMarker) (htop : a.StoresTopLevel)
    (hitem : a.KeepsToExternal item) {l : Leaf} (hl : a.Addresses l) :
    l.Follows a.storedName item (a.storedItem item) where
  marker := Leaf.isMarker_renamed ha l
  lookup := by
    have hundotted : '.' ∉ (a.storedName l.name).toList := by
      obtain hsame | hmem := a.storedName_eq_or_mem l.name
      · rw [hsame]
        exact hl.undotted
      · exact htop _ hmem
    have hpath : ∀ g, (l.renamed g).path = g l.name := fun g => by
      rw [Leaf.path, show (l.renamed g).parent = none from hl.parent]
      rfl
    rw [hpath, show l.path = l.name from hpath id, Item.lookup?_of_undotted hundotted,
      Item.lookup?_of_undotted hl.undotted, h.get?_storedItem hitem hl.external]

theorem OneToOne.isDeleted_storedItem (h : a.OneToOne) (ha : a.KeepsMarker)
    (hitem : a.KeepsToExternal item) : (a.storedItem item).isDeleted = item.isDeleted := by
  have hname : ¬OnlyNew a.toStored Reserved.isDeleted := by
    rintro ⟨⟨name, hstored⟩, hnone⟩
    have hrenamed : a.storedName name = Reserved.isDeleted := by
      rw [storedName, rename, hstored]
      rfl
    rw [ha.only name hrenamed, hnone] at hstored
    cases hstored
  have hget := h.get?_storedItem hitem hname
  rw [ha.stored] at hget
  rw [Item.isDeleted, hget]
  rfl

section Searches
variable {c : Criteria} (h : a.OneToOne) (ha : a.KeepsMarker) (htop : a.StoresTopLevel)
  (hc : ∀ l ∈ c.leaves, a.Addresses l)

include h ha htop hc

theorem OneToOne.keeps_storedItem (hitem : a.KeepsToExternal item) :
    keeps (some (c.mapNames a.storedName)) (a.storedItem item) = keeps (some c) item := by
  rw [keeps, keeps, Criteria.references_mapNames ha, h.isDeleted_storedItem ha hitem, Criteria.admits,
    Criteria.admits, Criteria.truth?_mapNames fun l hl => h.follows ha htop hitem (hc l hl)]

/-- **A search of renamed items for renamed criteria keeps the items that a search for the criteria keeps,
renamed and in their order, and fails as that one does.** This is so for every one-to-one table, however
stored names and external names overlap, that leaves `isDeleted` alone and renames no attribute to a path,
for items and criteria that keep to external names and to attributes of items themselves. -/
theorem OneToOne.select_storedItem {items : List Item} (hitems : ∀ item ∈ items, a.KeepsToExternal item) :
    select (some (c.mapNames a.storedName)) (items.map a.storedItem) =
      List.map a.storedItem <$> select (some c) items := by
  induction items with
  | nil => rfl
  | cons item rest ih =>
    obtain ⟨hitem, hrest⟩ := List.forall_mem_cons.1 hitems
    rw [List.map_cons, select, select, h.keeps_storedItem ha htop hc hitem, ih hrest]
    cases keeps (some c) item with
    | error e => rfl
    | ok b =>
      cases select (some c) rest with
      | error e => rfl
      | ok found => cases b <;> rfl

end Searches

/-- Two attributes that are stored under each other's names, and a chain of renamings. -/
def crossed : Aliases :=
  .ofList [("from", "to"), ("to", "from"), ("timerId", "id"), ("id", "reference")]

def outbound : Item :=
  .ofList [("from", .str "x"), ("to", .str "y"), ("timerId", .str "t1"), ("id", .str "t2")]

def inbound : Item :=
  .ofList [("from", .str "y"), ("to", .str "x"), ("timerId", .str "t2"), ("id", .str "t1")]

/-- Soft-deleted items aside, what leads from `x` and does not refer to `t1`. -/
def fromX : Criteria :=
  .join .and [
    .notDeleted,
    .leaf { op := .eq, name := "from", operand := some (.string "x") },
    .join .or [
      .leaf { op := .eq, name := "timerId", operand := some (.string "t2") },
      .leaf { op := .ne, name := "id", operand := some (.string "t1") }]]

theorem OneToOne.select_storedItem_crossed :
    select (some (fromX.mapNames crossed.storedName)) ([outbound, inbound].map crossed.storedItem) =
      .ok [.ofList [("from", .str "y"), ("to", .str "x"), ("id", .str "t1"), ("reference", .str "t2")]] := by
  have hkept : select (some fromX) [outbound, inbound] = .ok [outbound] := by rfl
  rw [OneToOne.select_storedItem (by decide) (by decide) (by decide) (by decide +kernel)
    (by decide +kernel), hkept]
  rfl

end Aliases
end DocumentStore
