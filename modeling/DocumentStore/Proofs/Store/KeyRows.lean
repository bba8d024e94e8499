import DocumentStore.Backend.Memory
import DocumentStore.Proofs.Query.KeyMatch

/-! The rows that a match by key value yields.

The filter of a match tests an attribute for equality, which no item makes fail, so a store always
answers (`Store.exists_page_keyMatch`). A row has the id of its item, and under `pk` what the item has
at the partition key, provided that the name of the partition key can stand in a list of fields
(`Schema.NamesField`). -/
namespace DocumentStore
open Json (Value)

/-! ### A match never fails -/

theorem Query.exists_keyMatch {value : Value} {operand : Term} (h : Term.ofValue value = .ok operand)
    (s : Schema) (key : String) : ∃ q, keyMatch s key value = .ok q := by
  unfold keyMatch
  rw [h]
  exact ⟨_, rfl⟩

theorem Leaf.exists_holds_keyLeaf (s : Schema) (key : String) (operand : Term) (item : Item) :
    ∃ b, (s.keyLeaf key operand).holds item = .ok b := by
  have hoperand : (s.keyLeaf key operand).operand = some operand := rfl
  unfold holds
  rw [hoperand]
  cases operand with
  | null => exact ⟨_, rfl⟩
  | _ =>
    cases item.lookup? (s.keyLeaf key _).path with
    | none => exact ⟨_, rfl⟩
    | some v => exact ⟨_, rfl⟩

theorem exists_keeps_keyLeaf (s : Schema) (key : String) (operand : Term) (item : Item) :
    ∃ b, keeps (some (.leaf (s.keyLeaf key operand))) item = .ok b := by
  have hadmits : ∃ b, (Criteria.leaf (s.keyLeaf key operand)).admits item = .ok b := by
    obtain ⟨b, hb⟩ := Leaf.exists_holds_keyLeaf s key operand item
    show ∃ b, ((if (s.keyLeaf key operand).isMarker then Except.ok none
      else some <$> (s.keyLeaf key operand).holds item) >>= fun t => pure (t.getD true)) = .ok b
    rw [hb]
    split
    · exact ⟨_, rfl⟩
    · exact ⟨_, rfl⟩
  show ∃ b, (if ((Criteria.leaf (s.keyLeaf key operand)).references Reserved.isDeleted &&
    item.isDeleted) = true then Except.ok false else _) = .ok b
  split
  · exact ⟨_, rfl⟩
  · exact hadmits

/-- What the filter of a match does not keep, it drops: it fails on no item. -/
theorem Query.kept_eq_false_iff {s : Schema} {key : String} {value : Value} {q : Query}
    (h : keyMatch s key value = .ok q) (item : Item) :
    kept q.filter item = false ↔ keeps q.filter item = .ok false := by
  obtain ⟨-, operand, -, hfilter⟩ := keyMatch_eq_ok h
  obtain ⟨b, hb⟩ := exists_keeps_keyLeaf s key operand item
  rw [← hfilter] at hb
  rw [kept_of_keeps hb, hb, Except.ok.injEq]

theorem exists_select_eq_ok {filter : Option Criteria} {items : List Item}
    (h : ∀ item, ∃ b, keeps filter item = .ok b) : ∃ found, select filter items = .ok found := by
  induction items with
  | nil => exact ⟨_, rfl⟩
  | cons item rest ih =>
    obtain ⟨b, hb⟩ := h item
    obtain ⟨found, hfound⟩ := ih
    rw [select, hb, hfound]
    exact ⟨_, rfl⟩

/-- A store answers a match by key value, whatever it holds, with the rows of the first items that the
filter keeps. -/
theorem Store.exists_page_keyMatch {schema : Schema} {key : String} {value : Value} {q : Query}
    (h : Query.keyMatch schema key value = .ok q) (container : String) (size batch : UInt64)
    (sorter : Sorter) (s : Store) :
    ∃ page, Store.page size sorter container { q with pageSize := some batch } none s = .ok page ∧
      page.items = ((s.keptEntries container q.filter).take (max 1 batch.toNat)).map
        fun e => e.2.project q.projection := by
  obtain ⟨hq, operand, -, hfilter⟩ := Query.keyMatch_eq_ok h
  have hbatch : Query.Exhaustive { q with pageSize := some batch } :=
    ⟨hq.partition, hq.sorting, hq.skip, hq.limit, hq.count⟩
  suffices ∃ page, Store.page size sorter container { q with pageSize := some batch } none s = .ok page by
    obtain ⟨page, hpage⟩ := this
    refine ⟨page, hpage, ?_⟩
    rw [Store.items_page hbatch hpage, Option.getD_some, Word.toNat_max]
    rfl
  cases hshelf : s.containers.get? container with
  | none =>
    rw [Store.page, hshelf]
    exact ⟨_, rfl⟩
  | some shelf =>
    have hkeeps : ∀ item, ∃ b, keeps q.filter item = .ok b := by
      rw [hfilter]
      exact exists_keeps_keyLeaf schema key operand
    obtain ⟨found, hfound⟩ : ∃ found, shelf.matching { q with pageSize := some batch } = .ok found :=
      exists_select_eq_ok hkeeps
    exact ⟨_, Store.page_of_exhaustive hbatch hshelf hfound size sorter⟩

/-- So does a backend in memory, and the store stays as it is. -/
theorem Memory.exists_outcome_query {schema : Schema} {key : String} {value : Value} {q : Query}
    (h : Query.keyMatch schema key value = .ok q) (m : Memory) (container : String) (batch : UInt64)
    (s : Store) :
    ∃ page, Action.outcome (m.backend.query container { q with pageSize := some batch } none) s =
        (.ok page, s) ∧
      page.items = ((s.keptEntries container q.filter).take (max 1 batch.toNat)).map
        fun e => e.2.project q.projection := by
  obtain ⟨page, hpage, hitems⟩ := Store.exists_page_keyMatch h container m.pageSize batch m.sorter s
  exact ⟨page, congrArg (·, s) hpage, hitems⟩

/-! ### What a row holds -/

/-- A text is cut at a marker if the marker does not begin earlier. -/
theorem Text.cut?_append {marker before after : List Char}
    (h : ∀ i < before.length, ¬marker <+: before.drop i ++ (marker ++ after)) :
    cut? marker (before ++ (marker ++ after)) = some (before, after) := by
  induction before with
  | nil =>
    rw [List.nil_append]
    cases htext : marker ++ after with
    | nil =>
      obtain ⟨rfl, rfl⟩ := List.append_eq_nil_iff.1 htext
      rfl
    | cons c rest =>
      have hprefix : marker.isPrefixOf (c :: rest) = true := by
        rw [← htext, List.isPrefixOf_iff_prefix]
        exact List.prefix_append ..
      rw [cut?, if_pos hprefix, ← htext, List.drop_left]
  | cons c before ih =>
    have hprefix : ¬marker.isPrefixOf (c :: (before ++ (marker ++ after))) = true := by
      rw [List.isPrefixOf_iff_prefix]
      exact h 0 (Nat.succ_pos _)
    rw [List.cons_append, cut?, if_neg hprefix, ih fun i hi => h (i + 1) (Nat.succ_lt_succ hi)]
    rfl

theorem Text.cut?_eq_none {marker cs : List Char} (h : ¬marker <:+: cs) : cut? marker cs = none := by
  induction cs with
  | nil =>
    have hne : marker.isEmpty = false := by
      rw [List.isEmpty_eq_false_iff]
      rintro rfl
      exact h List.nil_infix
    rw [cut?, hne]
    rfl
  | cons c rest ih =>
    have hprefix : ¬marker.isPrefixOf (c :: rest) = true := by
      rw [List.isPrefixOf_iff_prefix]
      exact fun hprefix => h hprefix.isInfix
    rw [cut?, if_neg hprefix, ih fun hrest => h (hrest.trans (List.suffix_cons c rest).isInfix)]
    rfl

/-- The name of the partition key can stand in a list of fields: it asks neither for whole items nor
for a name of its own, nor does it begin to. -/
structure Schema.NamesField (s : Schema) : Prop where
  noWildcard : '*' ∉ s.partitionKeyName.toList
  noMarker : ¬" AS ".toList <:+: s.partitionKeyName.toList
  noMarkerEnd : ¬" AS".toList <:+ s.partitionKeyName.toList

/-- The marker behind a name does not begin within it, where the name neither holds it nor ends in its
first three characters. -/
theorem Schema.NamesField.fieldPaths {s : Schema} (h : s.NamesField) (target : String) :
    Item.fieldPaths (s.partitionKeyName ++ " AS " ++ target) =
      (Item.dotted s.partitionKeyName, Item.dotted target) := by
  have hcut : Text.cut? " AS ".toList (s.partitionKeyName ++ " AS " ++ target).toList =
      some (s.partitionKeyName.toList, target.toList) := by
    rw [String.toList_append, String.toList_append, List.append_assoc]
    refine Text.cut?_append fun i hi hprefix => ?_
    have hsuffix : s.partitionKeyName.toList.drop i <:+ s.partitionKeyName.toList :=
      List.drop_suffix ..
    have hne : s.partitionKeyName.toList.drop i ≠ [] := by simpa using hi
    generalize s.partitionKeyName.toList.drop i = rest at hprefix hsuffix hne
    match rest with
    | [] => exact hne rfl
    | [a] => simp at hprefix
    | [a, b] => simp at hprefix
    | [a, b, c] =>
      have hrest : [a, b, c] = " AS".toList := by simpa [eq_comm] using hprefix
      exact h.noMarkerEnd (hrest ▸ hsuffix)
    | a :: b :: c :: d :: rest =>
      have hmarker : " AS ".toList <+: a :: b :: c :: d :: rest := by
        simpa using hprefix
      exact h.noMarker (hmarker.isInfix.trans hsuffix.isInfix)
  rw [Item.fieldPaths, hcut]
  show (Item.dotted (String.ofList _), Item.dotted (String.ofList _)) = _
  rw [String.ofList_toList, String.ofList_toList]

theorem Query.projection_keyMatch {s : Schema} {key : String} {value : Value} {q : Query}
    (h : keyMatch s key value = .ok q) :
    q.projection = [Reserved.id, s.partitionKeyName ++ " AS " ++ partitionField] := by
  obtain ⟨_, -, h⟩ := Result.bind_eq_ok_iff.1 h
  cases h
  rfl

/-- Fields without wildcards are added to the projection one after the other. -/
theorem Item.project_eq_foldl {fields : List String} (hne : fields ≠ [])
    (h : ∀ field ∈ fields, '*' ∉ field.toList) (item : Item) :
    item.project fields = fields.foldl item.withField .empty := by
  rw [project, if_neg]
  rw [Bool.or_eq_true, List.isEmpty_iff, List.any_eq_true, not_or]
  refine ⟨hne, ?_⟩
  intro h'
  obtain ⟨field, hfield, hwildcard⟩ := h'
  exact h field hfield (List.contains_iff_mem.1 hwildcard)

theorem Item.withField_id (item : Item) :
    item.withField .empty Reserved.id =
      match item.get? Reserved.id with
      | some v => OrderedMap.empty.insert Reserved.id v
      | none => .empty := by
  have hpaths : fieldPaths Reserved.id = ([Reserved.id], [Reserved.id]) := by decide +kernel
  have hat : item.at? [Reserved.id] = item.get? Reserved.id := by
    rw [at?]
    cases item.get? Reserved.id <;> rfl
  rw [withField, hpaths]
  show (match item.at? [Reserved.id] with
    | some v => OrderedMap.empty.insert Reserved.id v
    | none => .empty) = _
  rw [hat]

/-- A row has the id of its item, and under `pk` what the item has at the partition key. -/
theorem get?_keyRow {s : Schema} (hname : s.NamesField) {key : String} {value : Value} {q : Query}
    (h : Query.keyMatch s key value = .ok q) (item : Item) :
    (item.project q.projection).get? Reserved.id = item.get? Reserved.id ∧
      (item.project q.projection).get? Query.partitionField = item.lookup? s.partitionKeyName := by
  have hwildcard : ∀ field ∈ q.projection, '*' ∉ field.toList := by
    have hid : '*' ∉ Reserved.id.toList := by decide
    have hfield : '*' ∉ Query.partitionField.toList := by decide
    rw [Query.projection_keyMatch h]
    simp [hid, hfield, hname.noWildcard]
  have hne : q.projection ≠ [] := by
    rw [Query.projection_keyMatch h]
    exact List.cons_ne_nil _ _
  have htarget : Item.dotted Query.partitionField = [Query.partitionField] := by decide +kernel
  rw [Item.project_eq_foldl hne hwildcard, Query.projection_keyMatch h, List.foldl_cons,
    List.foldl_cons, List.foldl_nil, Item.withField, hname.fieldPaths, htarget]
  show OrderedMap.get? (match item.lookup? s.partitionKeyName with
      | some v => (item.withField .empty Reserved.id).insert Query.partitionField v
      | none => item.withField .empty Reserved.id) _ = _ ∧
    OrderedMap.get? (match item.lookup? s.partitionKeyName with
      | some v => (item.withField .empty Reserved.id).insert Query.partitionField v
      | none => item.withField .empty Reserved.id) _ = _
  rw [Item.withField_id]
  cases item.lookup? s.partitionKeyName <;> cases item.get? Reserved.id <;>
    simp [Reserved.id, Query.partitionField]

end DocumentStore
