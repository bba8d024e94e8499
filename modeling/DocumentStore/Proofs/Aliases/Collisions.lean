import DocumentStore.Proofs.Aliases

/-! Attributes that a table gives one name.

Renaming an item by any table, one-to-one or not, leaves one attribute under each name: the last in name
order of those that the table gives the name, and where it gives the name to none of them the attribute
that has the name already, unless the table gives that another (`Aliases.get?_renameItem`). -/
namespace DocumentStore.Aliases
open Json (Value)

variable {table : OrderedMap String String} {item : Item} {name : String}

/-- The last attribute of an item, in name order, that a table gives a name. -/
def lastMoved? (table : OrderedMap String String) (item : Item) (name : String) : Option String :=
  item.keys.reverse.find? fun key => table.get? key == some name

/-- The attribute of an item that stands under a name once a table has renamed the item. -/
def claimant? (table : OrderedMap String String) (item : Item) (name : String) : Option String :=
  (lastMoved? table item name).or (if table.contains name then none else some name)

theorem of_lastMoved? {key : String} (h : lastMoved? table item name = some key) :
    table.get? key = some name ∧ ∃ v, item.get? key = some v := by
  refine ⟨by simpa using List.find?_some h, ?_⟩
  obtain ⟨e, he, rfl⟩ := List.mem_map.1 (List.mem_reverse.1 (List.mem_of_find?_eq_some h))
  exact ⟨e.2, OrderedMap.get?_eq_some_iff.2 he⟩

theorem get?_eq_none_of_lastMoved? {key : String} (h : lastMoved? table item name = none)
    (hmoved : table.get? key = some name) : item.get? key = none := by
  refine Option.eq_none_iff_forall_ne_some.2 fun v hv => ?_
  have hkey : key ∈ item.keys.reverse :=
    List.mem_reverse.2 (List.mem_map_of_mem (OrderedMap.get?_eq_some_iff.1 hv))
  exact List.find?_eq_none.1 h key hkey (by simp [hmoved])

/-- Of the attributes that a table moves to a name the last counts. -/
theorem find?_reverse_movedEntries (table : OrderedMap String String) (item : Item) (name : String) :
    Entries.find? name (movedEntries table item).reverse =
      (lastMoved? table item name).bind item.get? := by
  have hget : ∀ e ∈ item.entries.reverse, item.get? e.1 = some e.2 :=
    fun e he => OrderedMap.get?_eq_some_iff.2 (List.mem_reverse.1 he)
  unfold movedEntries lastMoved? OrderedMap.keys
  rw [← List.map_reverse, ← List.filter_reverse, ← List.map_reverse]
  generalize item.entries.reverse = es at hget
  induction es with
  | nil => rfl
  | cons e rest ih =>
    obtain ⟨he, hrest⟩ := List.forall_mem_cons.1 hget
    rw [List.map_cons]
    cases hmoved : table.get? e.1 with
    | none =>
      rw [List.filter_cons_of_neg (by simp [OrderedMap.contains, hmoved]),
        List.find?_cons_of_neg (by simp [hmoved]), ih hrest]
    | some new =>
      rw [List.filter_cons_of_pos (by simp [OrderedMap.contains, hmoved]), List.map_cons,
        Entries.find?_cons, rename, hmoved, Option.getD_some]
      by_cases hnew : name = new
      · rw [if_pos hnew, List.find?_cons_of_pos (by simp [hmoved, hnew]), Option.bind_some, he]
      · rw [if_neg hnew, List.find?_cons_of_neg (by simpa [hmoved] using Ne.symm hnew), ih hrest]

/-- **What a renamed item has under a name is what the attribute that claims the name holds.** -/
theorem get?_renameItem (table : OrderedMap String String) (item : Item) (name : String) :
    (renameItem table item).get? name = (claimant? table item name).bind item.get? := by
  have hkept : Entries.Distinct (item.entries.filter fun e => !table.contains e.1) :=
    item.ordered.distinct.filter _
  rw [renameItem_eq, OrderedMap.get?_ofList, List.reverse_append, Entries.find?_append,
    find?_reverse_movedEntries, Entries.find?_reverse hkept,
    Entries.find?_filter fun name => !table.contains name, claimant?]
  cases hmoved : lastMoved? table item name with
  | none => cases table.contains name <;> rfl
  | some key =>
    -- The item has the attribute, so what the table leaves under the name does not count.
    obtain ⟨-, v, hv⟩ := of_lastMoved? hmoved
    simp [hv]

/-- A name that the table leaves alone, and gives to no other attribute of the item, keeps its value. -/
theorem get?_renameItem_of_unclaimed (hown : rename table name = name)
    (hfree : ∀ key v, item.get? key = some v → rename table key = name → key = name) :
    (renameItem table item).get? name = item.get? name := by
  rw [get?_renameItem, claimant?]
  cases hmoved : lastMoved? table item name with
  | some key =>
    obtain ⟨hnamed, v, hv⟩ := of_lastMoved? hmoved
    have hsame : key = name := hfree key v hv (by rw [rename, hnamed, Option.getD_some])
    rw [Option.some_or, hsame, Option.bind_some]
  | none =>
    rw [Option.none_or]
    split
    · next hcontains =>
      obtain ⟨new, hnew⟩ := OrderedMap.contains_iff.1 hcontains
      obtain rfl : new = name := by simpa [rename, hnew] using hown
      exact (get?_eq_none_of_lastMoved? hmoved hnew).symm
    · rfl

end DocumentStore.Aliases
