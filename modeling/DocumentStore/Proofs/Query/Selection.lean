import DocumentStore.Proofs.Query.Layout
import DocumentStore.Proofs.Store.Pages
import DocumentStore.Proofs.Store.Projection
import Mathlib.Data.Fintype.EquivFin

/-! What a search selects, in query text and in a backend that evaluates it.

The clause behind SELECT lists wildcards and stored names (`Query.columns`), and so asks for whole items or
for what they have under the names (`Query.Selected`). A backend that evaluates the query goes by a list of
its own, from which wildcards are left out (`Query.storedFields`), and looks for wildcards in what is left.
Where the clause has a wildcard its rows are what the clause asks for if they are the items
(`Query.selected_iff_of_wildcard`), and elsewhere if they show them under the names that are listed
(`Query.selected_iff_of_listed`). -/
namespace DocumentStore
open Json (Value)

/-! ### Items that tell fields apart -/

theorem Json.Value.ordered_atEnd (path : List String) : (atEnd path).Ordered := by
  induction path with
  | nil => trivial
  | cons name rest ih => exact ordered_obj_iff.2 ⟨List.pairwise_singleton _ _, by simpa using ih⟩

namespace Item

variable {item row : Item} {fields : List String} {name name' : String} {rest rest' : List String}

theorem ordered_along (name : String) (rest : List String) : (along name rest).toValue.Ordered :=
  Value.ordered_record (by simpa using Value.ordered_atEnd rest)

theorem at?_along_of_ne (h : name' ≠ name) (rest rest' : List String) :
    (along name rest).at? (name' :: rest') = none := by
  rw [at?, get?_along, if_neg h]
  rfl

/-- Some name stands in no path that the fields are taken from or put at. -/
theorem exists_unnamed (fields : List String) :
    ∃ name, ∀ field ∈ fields, name ∉ source field ∧ name ∉ target field := by
  obtain ⟨name, hname⟩ := Infinite.exists_notMem_finset (fields.flatMap fun f => source f ++ target f).toFinset
  rw [List.mem_toFinset, List.mem_flatMap, not_exists] at hname
  refine ⟨name, fun field hfield => ?_⟩
  have hneither := not_and.1 (hname field) hfield
  rwa [List.mem_append, not_or] at hneither

/-- Fields that the item lacks leave a row as it is. -/
theorem foldl_withField_of_none (h : ∀ field ∈ fields, item.at? (source field) = none) (row : Item) :
    fields.foldl item.withField row = row := by
  induction fields with
  | nil => rfl
  | cons field rest ih =>
    rw [List.foldl_cons, withField_of_none (h field List.mem_cons_self)]
    exact ih fun field hfield => h field (List.mem_cons_of_mem _ hfield)

theorem project_eq_self (h : fields = [] ∨ ∃ field ∈ fields, '*' ∈ field.toList) (item : Item) :
    item.project fields = item := by
  rw [project, if_pos]
  rw [Bool.or_eq_true, List.isEmpty_iff, List.any_eq_true]
  obtain h | ⟨field, hfield, hwildcard⟩ := h
  · exact .inl h
  · exact .inr ⟨field, hfield, List.contains_iff_mem.2 hwildcard⟩

/-- No list of fields without wildcards cuts every item down to itself. -/
theorem exists_project_ne (hne : fields ≠ []) (h : ∀ field ∈ fields, '*' ∉ field.toList) :
    ∃ item : Item, item.toValue.Ordered ∧ item.project fields ≠ item := by
  obtain ⟨name, hname⟩ := exists_unnamed fields
  refine ⟨along name [], ordered_along name [], fun heq => ?_⟩
  have hnone : ∀ field ∈ fields, (along name []).at? (source field) = none := by
    intro field hfield
    obtain ⟨first, rest, hsource⟩ := List.exists_cons_of_ne_nil (source_ne_nil field)
    rw [hsource]
    apply at?_along_of_ne
    rintro rfl
    exact (hname field hfield).1 (by simp [hsource])
  rw [project_eq_foldl hne h, foldl_withField_of_none hnone] at heq
  have hget := congrArg (·.get? name) heq
  simp [get?_along] at hget

/-- No list of fields is shown by every item itself. -/
theorem exists_not_shows (fields : List String) :
    ∃ item : Item, item.toValue.Ordered ∧ ¬item.Shows fields item := by
  obtain ⟨name, hname⟩ := exists_unnamed fields
  refine ⟨along name [], ordered_along name [], fun h => ?_⟩
  have hat : (along name []).at? [name] = some (.bool true) := at?_along_iff.2 ⟨rfl, rfl⟩
  obtain ⟨field, hfield, rest, hpath, -⟩ | ⟨⟨members, hobj⟩, -⟩ := h.within [name] _ hat
  · obtain ⟨first, behind, htarget⟩ := List.exists_cons_of_ne_nil (target_ne_nil field)
    rw [htarget, List.cons_append, List.cons.injEq] at hpath
    exact (hname field hfield).2 (by simp [htarget, hpath.1])
  · cases hobj

/-- Fields that want different things at one place are shown by no row, of some item. -/
theorem unambiguous_of_shows (h : ∀ item : Item, item.toValue.Ordered → ∃ row, item.Shows fields row) :
    Unambiguous fields := by
  intro field hfield other hother rest htarget
  obtain ⟨name, behind, hsource⟩ := List.exists_cons_of_ne_nil (source_ne_nil other)
  obtain ⟨first, more, hfirst⟩ :=
    List.exists_cons_of_ne_nil (List.append_ne_nil_of_left_ne_nil (source_ne_nil field) rest)
  obtain ⟨row, hrow⟩ := h (along name behind) (ordered_along name behind)
  have hsame : (along name behind).at? (first :: more) = (along name behind).at? (name :: behind) := by
    rw [← hfirst, ← hsource, ← hrow.at?_below hfield, ← htarget, hrow.found other hother]
  rw [at?_along_iff.2 ⟨rfl, rfl⟩, at?_along_iff] at hsame
  rw [hsource, hfirst, hsame.1, hsame.2]

end Item

namespace Query

/-! ### The clause -/

/-- One thing that a clause lists behind SELECT. -/
inductive Column where
  | wildcard (text : String)
  | stored (name : String)

namespace Column

/-- A column as query text. -/
def text : Column → String
  | wildcard text => text
  | stored name => "c." ++ name

/-- The name that a column lists. -/
def name? : Column → Option String
  | wildcard _ => none
  | stored name => some name

def isWildcard (c : Column) : Bool := c.name?.isNone

end Column

/-- What the clause of a search lists. -/
def columns (a : Aliases) (fields : List String) : List Column :=
  if fields = [] then [.wildcard "*"]
  else fields.map fun field => if isWildcard field then .wildcard field else .stored (a.storedName field)

/-- The clause is a list of its columns. -/
theorem selection_eq (a : Aliases) (fields : List String) :
    selection a fields = ",".intercalate ((columns a fields).map Column.text) := by
  unfold selection columns
  cases fields with
  | nil => rfl
  | cons field rest =>
    rw [List.isEmpty_cons, if_neg Bool.false_ne_true, if_neg (List.cons_ne_nil _ _), List.map_map]
    congr 2
    funext f
    show _ = Column.text (if isWildcard f then _ else _)
    split <;> rfl

/-- What some columns ask for: whole items where one of them is a wildcard, and otherwise what the items have
under the names that are listed, and no more. A name of the form `path AS path` is taken from the first path
and put at the second. -/
structure Selected (clause : List Column) (item row : Item) : Prop where
  whole : (∃ c ∈ clause, c.isWildcard = true) → row = item
  listed : (∀ c ∈ clause, c.isWildcard = false) → item.Shows (clause.filterMap Column.name?) row

variable {a : Aliases} {fields : List String} {clause : List Column} {item row : Item}

theorem selected_iff_of_wildcard (h : ∃ c ∈ clause, c.isWildcard = true) :
    Selected clause item row ↔ row = item := by
  refine ⟨fun hrow => hrow.whole h, fun hrow => ⟨fun _ => hrow, fun hnone => ?_⟩⟩
  obtain ⟨c, hc, hwildcard⟩ := h
  rw [hnone c hc] at hwildcard
  cases hwildcard

theorem selected_iff_of_listed (h : ∀ c ∈ clause, c.isWildcard = false) :
    Selected clause item row ↔ item.Shows (clause.filterMap Column.name?) row := by
  refine ⟨fun hrow => hrow.listed h, fun hrow => ⟨fun hsome => ?_, fun _ => hrow⟩⟩
  obtain ⟨c, hc, hwildcard⟩ := hsome
  rw [h c hc] at hwildcard
  cases hwildcard

theorem exists_wildcard_iff : (∃ c ∈ columns a fields, c.isWildcard = true) ↔
    fields = [] ∨ ∃ field ∈ fields, isWildcard field = true := by
  unfold columns
  split
  · next h => simp [h, Column.isWildcard, Column.name?]
  · next h =>
    simp only [List.mem_map, exists_exists_and_eq_and, h, false_or]
    refine exists_congr fun field => and_congr_right fun _ => ?_
    cases hfield : isWildcard field <;> simp [Column.isWildcard, Column.name?]

/-- A clause without wildcards lists the stored names of all fields. -/
theorem selected_columns_iff (hne : fields ≠ []) (h : ∀ field ∈ fields, isWildcard field = false) :
    Selected (columns a fields) item row ↔ item.Shows (fields.map a.storedName) row := by
  have hcolumns : columns a fields = fields.map (.stored <| a.storedName ·) := by
    rw [columns, if_neg hne]
    apply List.map_congr_left
    intro field hfield
    simp [h field hfield]
  have hnames : (columns a fields).filterMap Column.name? = fields.map a.storedName := by
    rw [hcolumns, List.filterMap_map, ← List.filterMap_eq_map]
    rfl
  rw [selected_iff_of_listed, hnames]
  intro c hc
  rw [hcolumns] at hc
  obtain ⟨field, -, rfl⟩ := List.mem_map.1 hc
  rfl

/-! ### The list that a backend evaluates -/

/-- The fields that a search names, as they are stored. -/
def storedFields (a : Aliases) (fields : List String) : List String :=
  (fields.filter (!isWildcard ·)).map a.storedName

theorem storedFields_eq_nil_iff : storedFields a fields = [] ↔ ∀ field ∈ fields, isWildcard field = true := by
  simp [storedFields, List.filter_eq_nil_iff]

theorem storedFields_eq_map (h : ∀ field ∈ fields, isWildcard field = false) :
    storedFields a fields = fields.map a.storedName := by
  rw [storedFields, List.filter_eq_self.2 fun field hfield => by rw [h field hfield, Bool.not_false]]

theorem isWildcard_eq_false_iff {field : String} : isWildcard field = false ↔ '*' ∉ field.toList := by
  simp [isWildcard]

/-- Where the list asks for what the clause asks for: no field is named; or one is named and one is a
wildcard, and a stored name stands in for the wildcard that is left out; or none is a wildcard, no stored
name is taken for one, and no two of them want different things at one place. -/
inductive Selective (a : Aliases) (fields : List String) : Prop
  | unnamed (h : ∀ field ∈ fields, isWildcard field = true)
  | mixed (h : ∃ field ∈ fields, isWildcard field = true)
    (hstored : ∃ name ∈ storedFields a fields, isWildcard name = true)
  | named (h : ∀ field ∈ fields, isWildcard field = false)
    (hstored : ∀ name ∈ storedFields a fields, isWildcard name = false)
    (hplaces : Item.Unambiguous (storedFields a fields))

theorem Selective.selected (h : Selective a fields) (hitem : item.toValue.Ordered) :
    Selected (columns a fields) item (item.project (storedFields a fields)) := by
  cases h with
  | unnamed h =>
    have hnone : storedFields a fields = [] := storedFields_eq_nil_iff.2 h
    rw [selected_iff_of_wildcard, Item.project_eq_self (.inl hnone)]
    rw [exists_wildcard_iff]
    cases fields with
    | nil => exact .inl rfl
    | cons field rest => exact .inr ⟨field, List.mem_cons_self, h field List.mem_cons_self⟩
  | mixed h hstored =>
    obtain ⟨name, hname, hwildcard⟩ := hstored
    rw [selected_iff_of_wildcard (exists_wildcard_iff.2 (.inr h)),
      Item.project_eq_self (.inr ⟨name, hname, List.contains_iff_mem.1 hwildcard⟩)]
  | named h hstored hplaces =>
    by_cases hne : fields = []
    · subst hne
      rw [selected_iff_of_wildcard (exists_wildcard_iff.2 (.inl rfl))]
      exact Item.project_eq_self (.inl rfl) item
    · rw [selected_columns_iff hne h, ← storedFields_eq_map h]
      apply Item.shows_project hitem
      · rw [storedFields_eq_map h]
        exact fun hnone => hne (List.map_eq_nil_iff.1 hnone)
      · exact fun name hname => isWildcard_eq_false_iff.1 (hstored name hname)
      · exact hplaces

theorem selective_of_selected (h : ∀ item : Item, item.toValue.Ordered →
    Selected (columns a fields) item (item.project (storedFields a fields))) : Selective a fields := by
  by_cases hall : ∀ field ∈ fields, isWildcard field = true
  · exact .unnamed hall
  have hne : storedFields a fields ≠ [] := fun hnone => hall (storedFields_eq_nil_iff.1 hnone)
  by_cases hsome : ∃ field ∈ fields, isWildcard field = true
  · by_cases hstored : ∃ name ∈ storedFields a fields, isWildcard name = true
    · exact .mixed hsome hstored
    · -- The clause has a wildcard that the list has lost: some item is cut down.
      have hnone : ∀ name ∈ storedFields a fields, '*' ∉ name.toList := by
        simpa [← isWildcard_eq_false_iff] using hstored
      obtain ⟨item, hitem, hcut⟩ := Item.exists_project_ne hne hnone
      exact absurd ((selected_iff_of_wildcard (exists_wildcard_iff.2 (.inr hsome))).1 (h item hitem)) hcut
  · have hnamed : ∀ field ∈ fields, isWildcard field = false := by simpa using hsome
    have hfields : fields ≠ [] := by
      rintro rfl
      exact hne rfl
    by_cases hstored : ∃ name ∈ storedFields a fields, isWildcard name = true
    · -- The list has a wildcard that the clause has not: some item is not cut down.
      obtain ⟨name, hname, hwildcard⟩ := hstored
      obtain ⟨item, hitem, hwhole⟩ := Item.exists_not_shows (fields.map a.storedName)
      have hrow := (selected_columns_iff hfields hnamed).1 (h item hitem)
      rw [Item.project_eq_self (.inr ⟨name, hname, List.contains_iff_mem.1 hwildcard⟩)] at hrow
      exact absurd hrow hwhole
    · refine .named hnamed (by simpa using hstored) ?_
      rw [storedFields_eq_map hnamed]
      apply Item.unambiguous_of_shows
      intro item hitem
      exact ⟨_, (selected_columns_iff hfields hnamed).1 (h item hitem)⟩

end Query

/-! ### Searches -/

namespace Query

variable {schema : Schema} {partition : String} {criteria : Option Criteria} {options : SearchOptions}
  {q : Query}

theorem count_find (h : find schema partition criteria options = .ok q) : q.count = false := by
  obtain ⟨base, hbase, h⟩ := Result.bind_eq_ok_iff.1 h
  obtain ⟨_, -, rfl⟩ := inPartition_eq_ok_iff.1 hbase
  cases h
  rfl

theorem projection_find (h : find schema partition criteria options = .ok q) :
    q.projection = storedFields schema.aliases options.fields := by
  obtain ⟨_, -, h⟩ := Result.bind_eq_ok_iff.1 h
  cases h
  rfl

end Query

/-- The rows on a page are stored items, cut down to the fields of the query. -/
theorem Store.exists_items_page {q : Query} (hcount : q.count = false) {size : UInt64} {sorter : Sorter}
    {container : String} {token : Option String} {s : Store} {page : Page}
    (h : s.page size sorter container q token = .ok page) :
    ∃ items : List Item, (∀ item ∈ items, ∃ key, s.find? container key = some item) ∧
      page.items = items.map (·.project q.projection) := by
  obtain rfl | ⟨results, offset, hresults, rfl⟩ := Store.of_page_eq_ok hcount h
  · exact ⟨[], nofun, rfl⟩
  · refine ⟨_, fun item hitem => ?_, rfl⟩
    exact exists_find?_of_mem_results hresults (List.mem_of_mem_drop (List.mem_of_mem_take hitem))

namespace Query

variable {schema : Schema} {partition : String} {criteria : Option Criteria} {options : SearchOptions}
  {q : Query}

/-- **Behind SELECT a search lists its columns. A backend in memory answers it with stored items that are cut
down to the list of the query. That makes of each item what the columns ask for exactly if the fields are
selective.** -/
theorem find_selects_iff (h : find schema partition criteria options = .ok q) :
    (∃ behind, q.text =
      opening schema (",".intercalate ((columns schema.aliases options.fields).map Column.text)) partition ++
        behind) ∧
    (∀ (m : Memory) (container : String) (token : Option String) (s s' : Store) (page : Page),
      Action.outcome (m.backend.query container q token) s = (.ok page, s') →
        ∃ items : List Item, (∀ item ∈ items, ∃ key, s.find? container key = some item) ∧
          page.items = items.map (·.project q.projection)) ∧
    ((∀ item : Item, item.toValue.Ordered →
        Selected (columns schema.aliases options.fields) item (item.project q.projection)) ↔
      Selective schema.aliases options.fields) := by
  refine ⟨?_, ?_, ?_⟩
  · obtain ⟨_, -, htext, -⟩ := (Searches.find h).layout
    rw [← selection_eq]
    exact ⟨_, by rw [htext, String.append_assoc]⟩
  · intro m container token s s' page hpage
    exact Store.exists_items_page (count_find h) (congrArg Prod.fst hpage)
  · rw [projection_find h]
    exact ⟨selective_of_selected, fun hselective item hitem => hselective.selected hitem⟩

/-- Remarks, which callers know as notes. -/
def remarks : Schema :=
  Schema.withAlias { container := "remarks", partitionKeyPath := "/pk" } "note" "remark"

def remark : Item :=
  .ofList [("author", .obj [("mail", .str "m"), ("name", .str "n")]), ("id", .str "a"), ("remark", .str "x")]

theorem ordered_remark : remark.toValue.Ordered :=
  Json.ordered_of_read? (s := remark.toValue.text) (by decide +kernel)

/-- A renamed field, one that items may lack, and one that holds another. -/
def remarkFields : List String := ["note", "author.name", "author", "due"]

theorem exists_find_selects :
    ∃ q, find remarks "p" none { fields := remarkFields } = .ok q ∧
      q.text = "SELECT c.remark,c.author.name,c.author,c.due FROM c WHERE c.pk = 'p' OFFSET 0 LIMIT 100" ∧
      Selective remarks.aliases remarkFields ∧
      Selected (columns remarks.aliases remarkFields) remark (remark.project q.projection) := by
  have hselective : Selective remarks.aliases remarkFields := by
    refine .named (by decide +kernel) (by decide +kernel) (Item.unambiguous_of_isPath ?_)
    decide +kernel
  have hfind : find remarks "p" none { fields := remarkFields } = .ok _ := rfl
  obtain ⟨-, -, hiff⟩ := find_selects_iff hfind
  exact ⟨_, hfind, by decide +kernel, hselective, hiff.2 hselective remark ordered_remark⟩

/-- Beside a named field a wildcard is lost: the text selects all, and the rows have the field alone. -/
theorem exists_find_not_selects :
    ∃ q, find remarks "p" none { fields := ["*", "note"] } = .ok q ∧
      q.text = "SELECT *,c.remark FROM c WHERE c.pk = 'p' OFFSET 0 LIMIT 100" ∧
      remark.toValue.Ordered ∧ remark.project q.projection = .ofList [("remark", .str "x")] ∧
      ¬Selected (columns remarks.aliases ["*", "note"]) remark (remark.project q.projection) := by
  refine ⟨_, rfl, by decide +kernel, ordered_remark, Item.toValue_injective (by decide +kernel), ?_⟩
  rw [selected_iff_of_wildcard (by decide +kernel)]
  exact fun heq => absurd (congrArg Item.toValue heq) (by decide +kernel)

end Query
end DocumentStore
