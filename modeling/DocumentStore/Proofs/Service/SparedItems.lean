import DocumentStore.Proofs.Filter.SelfMatch
import DocumentStore.Proofs.Service.Refusals

/-! Items without a value, and what a deletion by a value leaves of them.

However a deletion by a value ends, what it has taken out is named by rows of what it was to find to
begin with (`Store.Loses`). It finds no item that lacks the value, or has null for it, if the value is
read as a scalar. But a list is compared as null is, and an array that is empty or begins with null is
read as null, so by these it does (`Term.Spares`). -/
namespace DocumentStore
open DocumentStore.Action
open Json (Value)

variable {m : Memory} {registry : Registry} {hashing : HashOrder} {container : String} {s s' : Store}

/-! ### What is found -/

/-- An item is not found by an operand if it holds no value, or null, where it is looked for. -/
def Term.Spares (operand : Term) (held : Option Value) : Prop :=
  operand ≠ .null ∧ (held = some .null → operand.isArray = false)

theorem Term.spares_of_ofScalar {value : Value} {operand : Term} (h : ofScalar value = .ok operand)
    (hnull : value ≠ .null) (held : Option Value) : operand.Spares held := by
  obtain ⟨harray, hnone⟩ := isArray_of_ofScalar h
  exact ⟨fun hoperand => hnull (hnone hoperand), fun _ => harray⟩

/-- Null equals the lists among operands, and null itself. -/
theorem Comparable.same_null_ofTerm {operand : Term} (h : operand ≠ .null) :
    null.same (ofTerm operand) = operand.isArray := by
  cases operand with
  | null => exact absurd rfl h
  | _ => rfl

/-- An item without a value is found exactly if the operand does not spare it. -/
theorem kept_keyLeaf_absent_iff {schema : Schema} {key : String} (operand : Term)
    (hname : schema.aliases.storedName key ≠ Reserved.isDeleted) {item : Item}
    (habsent : isAbsent (item.lookup? (schema.aliases.storedName key)) = true) :
    kept (some (.leaf (schema.keyLeaf key operand))) item = true ↔
      ¬operand.Spares (item.lookup? (schema.aliases.storedName key)) := by
  have hpath : (schema.keyLeaf key operand).path = schema.aliases.storedName key := rfl
  by_cases hnull : operand = .null
  · have hholds : (schema.keyLeaf key operand).holds item = .ok true := by
      subst hnull
      exact congrArg Except.ok habsent
    rw [kept_keyLeaf_of_holds hname hholds]
    exact iff_of_true rfl fun hspares => hspares.1 hnull
  · cases hlookup : item.lookup? (schema.aliases.storedName key) with
    | none =>
      have hholds : (schema.keyLeaf key operand).holds item = .ok false := by
        unfold Leaf.holds
        rw [hpath, hlookup]
        cases operand with
        | null => exact absurd rfl hnull
        | _ => rfl
      rw [kept_keyLeaf_of_holds hname hholds]
      exact iff_of_false Bool.false_ne_true fun hnot => hnot ⟨hnull, nofun⟩
    | some v =>
      rw [hlookup] at habsent
      have hv : v = .null := by
        cases v with
        | null => rfl
        | _ => cases habsent
      subst hv
      have hholds : (schema.keyLeaf key operand).holds item = .ok operand.isArray := by
        rw [← Comparable.same_null_ofTerm hnull]
        exact Leaf.holds_of_lookup? (l := schema.keyLeaf key operand) .eq hnull hlookup
      rw [kept_keyLeaf_of_holds hname hholds]
      simp [Term.Spares, hnull]

/-- The match by a value finds an item without the value exactly if what is read of the value does not
spare it. -/
theorem kept_keyMatch_absent_iff {schema : Schema} {key : String} {value : Value} {operand : Term}
    {q : Query} (hvalue : Term.ofValue value = .ok operand)
    (hmatch : Query.keyMatch schema key value = .ok q)
    (hname : schema.aliases.storedName key ≠ Reserved.isDeleted) {item : Item}
    (habsent : isAbsent (item.lookup? (schema.aliases.storedName key)) = true) :
    kept q.filter item = true ↔
      ¬operand.Spares (item.lookup? (schema.aliases.storedName key)) := by
  obtain ⟨-, operand', hoperand, hfilter⟩ := Query.keyMatch_eq_ok hmatch
  obtain rfl := Except.ok.inj (hvalue.symm.trans hoperand)
  rw [hfilter, kept_keyLeaf_absent_iff operand hname habsent]

/-! ### What is taken out -/

/-- The second store has nothing that the first has not, and what it lacks of the first is gone by
rights. -/
structure Store.Loses (Gone : String → ItemKey → Prop) (s s' : Store) : Prop where
  includes : s.Includes s'
  gone : ∀ other key item, s.find? other key = some item →
    s'.find? other key = some item ∨ Gone other key

instance {Gone : String → ItemKey → Prop} : IsPreorder Store (Store.Loses Gone) where
  refl s := ⟨Std.Refl.refl s, fun _ _ _ h => .inl h⟩
  trans s s₁ s' h h' := by
    refine ⟨IsTrans.trans s s₁ s' h.includes h'.includes, fun other key item hitem => ?_⟩
    rcases h.gone other key item hitem with hleft | hgone
    · exact h'.gone other key item hleft
    · exact .inr hgone

theorem Store.Loses.mono {Gone Gone' : String → ItemKey → Prop} (h : s.Loses Gone s')
    (himp : ∀ other key, Gone other key → Gone' other key) : s.Loses Gone' s' :=
  ⟨h.includes, fun other key item hitem => (h.gone other key item hitem).imp_right (himp other key)⟩

/-- What comes behind a step loses the store what it does by rights, if it does so in every store that
the step may leave. -/
theorem Store.Loses.bind {Gone : String → ItemKey → Prop} {a : Action α} {f : α → Action β}
    (ha : s.Loses Gone (outcome a s).2)
    (hf : ∀ x s₁, s.Includes s₁ → s₁.Loses Gone (outcome (f x) s₁).2) :
    s.Loses Gone (outcome (a >>= f) s).2 := by
  rw [outcome_bind]
  cases hout : outcome a s with
  | mk result s₁ =>
    rw [hout] at ha
    cases result with
    | error e => exact ha
    | ok x => exact IsTrans.trans s s₁ _ ha (hf x s₁ ha.includes)

namespace Service

/-- A row of what a query finds in the container names the key. -/
def NamedIn (container : String) (q : Query) (fallback : Option String) (s : Store) (other : String)
    (key : ItemKey) : Prop :=
  other = container ∧ ∃ row, s.Yields container q row ∧ RowNames container fallback row key

/-- What a page of rows loses the store, they name. -/
theorem loses_deletePage (container : String) (fallback : Option String) (chunk : Nat)
    (rows : List Item) :
    Moves (Store.Loses fun other key => other = container ∧
        ∃ row ∈ rows, RowNames container fallback row key)
      ((⟨m.backend, registry, hashing⟩ : Service).deletePage container fallback chunk rows) := by
  refine moves_forM fun part hpart => moves_liftM_bind fun keys hkeys => moves_forM fun key hkey =>
    moves_discard fun s => ⟨moves_delete _ _ _ s, fun other key' item hitem => ?_⟩
  obtain ⟨row, hrow, hnames⟩ := exists_of_mem_forall₂ (Result.mapM_eq_ok_iff.1 hkeys).flip hkey
  have hmem : row ∈ rows := by
    rw [← flatten_chunks chunk rows]
    exact List.mem_flatten_of_mem hpart hrow
  by_cases hsame : other = container ∧ key' = ⟨key.2, key.1⟩
  · obtain ⟨rfl, rfl⟩ := hsame
    exact .inr ⟨rfl, row, hmem, hnames⟩
  · refine .inl ?_
    show (outcome (.ofChange (Store.delete container key.1 key.2)) s).2.find? other key' = some item
    rw [outcome_ofChange, Store.delete]
    cases s.find? container ⟨key.2, key.1⟩ with
    | none => exact hitem
    | some _ =>
      show (s.remove container ⟨key.2, key.1⟩).find? other key' = some item
      rw [Store.find?_remove, if_neg hsame, hitem]

/-- What rounds lose the store, rows of what was to be found to begin with name. -/
theorem loses_deleteRounds {q : Query} {fallback : Option String} {ask : Action Page}
    {remove : List Item → Action Unit}
    (hask : ∀ s, ∃ page, outcome ask s = (.ok page, s) ∧ ∀ row ∈ page.items, s.Yields container q row)
    (hremove : ∀ rows, Moves (Store.Loses fun other key => other = container ∧
      ∃ row ∈ rows, RowNames container fallback row key) (remove rows)) (most : Nat) (s : Store) :
    s.Loses (NamedIn container q fallback s) (outcome (deleteRounds ask remove most) s).2 := by
  induction most generalizing s with
  | zero => exact Std.Refl.refl s
  | succ most ih =>
    obtain ⟨page, hpage, hrows⟩ := hask s
    rw [outcome_deleteRounds_succ hpage]
    split
    · exact Std.Refl.refl s
    · have hfirst : s.Loses (NamedIn container q fallback s) (outcome (remove page.items) s).2 := by
        refine (hremove page.items s).mono fun other key hgone => ?_
        obtain ⟨hother, row, hrow, hnames⟩ := hgone
        exact ⟨hother, row, hrows row hrow, hnames⟩
      refine hfirst.bind fun _ s₁ hincludes => (ih s₁).mono fun other key hgone => ?_
      obtain ⟨hother, row, hrow, hnames⟩ := hgone
      exact ⟨hother, row, hincludes.yields hrow, hnames⟩

theorem loses_deleteMatching {schema : Schema} {key : String} {value : Value} {q : Query}
    (hmatch : Query.keyMatch schema key value = .ok q) (batch : UInt64) (s : Store) :
    s.Loses (NamedIn schema.container q (Item.keyText? value) s)
      (outcome ((⟨m.backend, registry, hashing⟩ : Service).deleteMatching schema key value batch) s).2 := by
  unfold deleteMatching
  rw [hmatch]
  exact loses_deleteRounds (yields_of_query hmatch schema.container batch)
    (fun _ => loses_deletePage _ _ _ _) _ s

/-- A row of what a deletion by value finds for one of the schemas names the key. -/
def NamedFor (schemas : List Schema) (key : String) (value : Value) (s : Store) (other : String)
    (k : ItemKey) : Prop :=
  ∃ schema ∈ schemas, ∃ q, Query.keyMatch schema key value = .ok q ∧
    NamedIn schema.container q (Item.keyText? value) s other k

theorem loses_forM_deleteMatching {schemas : List Schema} {key : String} {value : Value}
    {operand : Term} (hvalue : Term.ofValue value = .ok operand) (batch : UInt64) (s : Store) :
    s.Loses (NamedFor schemas key value s) (outcome (schemas.forM fun schema =>
      (⟨m.backend, registry, hashing⟩ : Service).deleteMatching schema key value batch) s).2 := by
  induction schemas generalizing s with
  | nil => exact Std.Refl.refl s
  | cons schema rest ih =>
    obtain ⟨q, hmatch⟩ := Query.exists_keyMatch hvalue schema key
    have hfirst : s.Loses (NamedFor (schema :: rest) key value s)
        (outcome ((⟨m.backend, registry, hashing⟩ : Service).deleteMatching schema key value batch) s).2 :=
      (loses_deleteMatching hmatch batch s).mono fun other k hnamed =>
        ⟨schema, List.mem_cons_self, q, hmatch, hnamed⟩
    refine hfirst.bind fun _ s₁ hincludes => (ih s₁).mono fun other k hnamed => ?_
    obtain ⟨schema', hschema', q', hmatch', hother, row, hrow, hnames⟩ := hnamed
    exact ⟨schema', List.mem_cons_of_mem schema hschema', q', hmatch', hother, row,
      hincludes.yields hrow, hnames⟩

/-- **However a deletion by a value ends, what is gone is named by a row of what it was to find to begin
with in the same container.** -/
theorem loses_deleteByKeyValue {ss : List Schema} (containers : List String) {key : String}
    {value : Value} {operand : Term} (hvalue : Term.ofValue value = .ok operand) (batch : UInt64)
    (s : Store) :
    s.Loses (fun other k => other ∈ containers ∧ ∃ schema q,
        (Registry.ofList ss).schemas.get? other = some schema ∧
        Query.keyMatch schema key value = .ok q ∧ NamedIn other q (Item.keyText? value) s other k)
      (outcome ((⟨m.backend, .ofList ss, hashing⟩ : Service).deleteByKeyValue containers key value batch)
        s).2 := by
  unfold deleteByKeyValue
  rw [outcome_bind, outcome_liftM]
  cases Checks.someInput .delete containers with
  | error e => exact Std.Refl.refl s
  | ok =>
    show s.Loses _ (outcome (liftM (containers.mapM _ : Result _) >>= fun schemas => _) s).2
    rw [outcome_bind, outcome_liftM]
    cases hschemas : containers.mapM fun container =>
        (⟨m.backend, .ofList ss, hashing⟩ : Service).schema container .delete with
    | error e => exact Std.Refl.refl s
    | ok schemas =>
      refine (loses_forM_deleteMatching hvalue _ s).mono fun other k hnamed => ?_
      obtain ⟨schema, hschema, q, hmatch, rfl, hrow⟩ := hnamed
      obtain ⟨hcontainer, hget⟩ := Registry.registered_of_resolve hschemas schema hschema
      exact ⟨hcontainer, schema, q, hget, hmatch, rfl, hrow⟩

/-- A deletion by a value that comes out takes what its query keeps out of a container that it is for,
and no more. -/
theorem exists_find?_deleteByKeyValue {ss : List Schema} {containers : List String} {schema : Schema}
    {key : String} {value : Value} {batch : UInt64}
    (hget : (Registry.ofList ss).schemas.get? container = some schema)
    (hcontainer : container ∈ containers)
    (hok : (outcome ((⟨m.backend, .ofList ss, hashing⟩ : Service).deleteByKeyValue containers key value batch)
      s).1.isOk = true) :
    ∃ q, Query.keyMatch schema key value = .ok q ∧ ∀ k item,
      (outcome ((⟨m.backend, .ofList ss, hashing⟩ : Service).deleteByKeyValue containers key value batch)
          s).2.find? container k = some item ↔
        s.find? container k = some item ∧ kept q.filter item = false := by
  obtain ⟨s', h⟩ := exists_outcome_eq_ok hok
  obtain ⟨schema', q, hget', hmatch, hfind⟩ := (find?_deleteByKeyValue h).2 container hcontainer
  obtain rfl := Option.some.inj (hget.symm.trans hget')
  refine ⟨q, hmatch, ?_⟩
  rw [h]
  exact hfind

/-- **Items that lack a value, or have null for it, are left by a deletion by the value, however it
ends, if the operand spares them**; but for one that another item of the container, which has the value,
names in its row, and then the deletion fails. Operands that are read of scalars other than null spare
all of them. What an operand does not spare is gone once the deletion comes out. -/
theorem spared_deleteByKeyValue (m : Memory) {ss : List Schema} (containers : List String) {key : String}
    {value : Value} (batch : UInt64) {operand : Term} (hvalue : Term.ofValue value = .ok operand)
    {schema : Schema} (hget : (Registry.ofList ss).schemas.get? container = some schema)
    (hname : schema.aliases.storedName key ≠ Reserved.isDeleted) {k : ItemKey} {item : Item}
    (hitem : s.find? container k = some item)
    (habsent : isAbsent (item.lookup? (schema.aliases.storedName key)) = true) :
    let left :=
      outcome ((⟨m.backend, .ofList ss, hashing⟩ : Service).deleteByKeyValue containers key value batch) s
    (operand.Spares (item.lookup? (schema.aliases.storedName key)) →
      left.2.find? container k = some item ∨ left.1.isOk = false ∧ ∃ q other found,
        Query.keyMatch schema key value = .ok q ∧ other ≠ k ∧ s.find? container other = some found ∧
        kept q.filter found = true ∧
        RowNames container (Item.keyText? value) (found.project q.projection) k) ∧
    (value.IsScalar → value ≠ .null →
      operand.Spares (item.lookup? (schema.aliases.storedName key))) ∧
    (¬operand.Spares (item.lookup? (schema.aliases.storedName key)) → container ∈ containers →
      left.1.isOk = true → left.2.find? container k = none) := by
  intro left
  have hkept {q : Query} (hmatch : Query.keyMatch schema key value = .ok q) :
      kept q.filter item = true ↔ ¬operand.Spares (item.lookup? (schema.aliases.storedName key)) :=
    kept_keyMatch_absent_iff hvalue hmatch hname habsent
  refine ⟨fun hspares => ?_, fun hscalar hnull => ?_, fun hspares hcontainer hok => ?_⟩
  · obtain hleft | ⟨hcontainer, schema', q, hget', hmatch, -, row, hrow, hnames⟩ :=
      (loses_deleteByKeyValue (m := m) containers hvalue batch s).gone container k item hitem
    · exact .inl hleft
    · obtain rfl := Option.some.inj (hget.symm.trans hget')
      have hnot : kept q.filter item = false := by
        rw [← Bool.not_eq_true, hkept hmatch, not_not]
        exact hspares
      by_cases hok : left.1.isOk = true
      · obtain ⟨q', hmatch', hfind⟩ := exists_find?_deleteByKeyValue hget hcontainer hok
        obtain rfl := Except.ok.inj (hmatch.symm.trans hmatch')
        exact .inl ((hfind k item).2 ⟨hitem, hnot⟩)
      · obtain ⟨other, found, hfound, hkeeps, rfl⟩ := hrow
        refine .inr ⟨Bool.eq_false_iff.2 hok, q, other, found, hmatch, ?_, hfound, hkeeps, hnames⟩
        rintro rfl
        rw [hitem] at hfound
        cases hfound
        rw [hnot] at hkeeps
        cases hkeeps
  · exact Term.spares_of_ofScalar ((Term.ofValue_of_isScalar hscalar).symm.trans hvalue) hnull _
  · obtain ⟨q, hmatch, hfind⟩ := exists_find?_deleteByKeyValue hget hcontainer hok
    refine Option.eq_none_iff_forall_ne_some.2 fun item' hitem' => ?_
    obtain ⟨hthere, hnot⟩ := (hfind k item').1 hitem'
    obtain rfl := Option.some.inj (hitem.symm.trans hthere)
    rw [(hkept hmatch).2 hspares] at hnot
    cases hnot

theorem spared_deleteByKeyValue_done :
    (outcome (itemsService.deleteByKeyValue ["items"] "done" (.bool true) 0) doneAndDeleted).2.find?
      "items" ⟨"p", "b"⟩ = some deletedItem := by
  have hname : items.aliases.storedName "done" ≠ Reserved.isDeleted := by decide +kernel
  have habsent : isAbsent (deletedItem.lookup? (items.aliases.storedName "done")) = true := by
    decide +kernel
  have hok : (outcome (itemsService.deleteByKeyValue ["items"] "done" (.bool true) 0)
      doneAndDeleted).1.isOk = true := by
    decide +kernel
  have hvalue : Term.ofValue (.bool true) = .ok (.boolean true) := rfl
  have hscalar : (Value.bool true).IsScalar := trivial
  obtain ⟨hspared, hspares, -⟩ := spared_deleteByKeyValue {} ["items"] 0 hvalue get?_items hname
    find?_doneAndDeleted.2 habsent
  obtain hleft | ⟨hfails, -⟩ := hspared (hspares hscalar nofun)
  · exact hleft
  · exact absurd hok (Bool.eq_false_iff.1 hfails)

/-- An item with null where others are done. -/
def undecidedItem : Item := .ofList [("id", .str "c"), ("pk", .str "p"), ("done", .null)]

/-- A done item filed where it does not belong, and an item that its row names. -/
def misfiledItems : Store :=
  Store.put default "items" ⟨"p", "a"⟩ (doneItem.insert "pk" (.str "q"))
    |>.put "items" ⟨"q", "a"⟩ (.ofList [("id", .str "a"), ("pk", .str "q")])

/-- An empty array takes out items without the attribute, and a list items with null for it; and a
deletion by a scalar takes out what the row of another item names, before it fails. -/
theorem exists_deleteByKeyValue_not_spared :
    (doneAndDeleted.find? "items" ⟨"p", "b"⟩ = some deletedItem ∧ deletedItem.lookup? "done" = none ∧
      (outcome (itemsService.deleteByKeyValue ["items"] "done" (.arr []) 0) doneAndDeleted).2.find?
        "items" ⟨"p", "b"⟩ = none) ∧
    ((doneAndDeleted.put "items" ⟨"p", "c"⟩ undecidedItem).find? "items" ⟨"p", "c"⟩ =
        some undecidedItem ∧
      (outcome (itemsService.deleteByKeyValue ["items"] "done" (.arr [.int 1]) 0)
        (doneAndDeleted.put "items" ⟨"p", "c"⟩ undecidedItem)).2.find? "items" ⟨"p", "c"⟩ = none) ∧
    ((misfiledItems.find? "items" ⟨"q", "a"⟩).map (·.lookup? "done") = some none ∧
      (outcome (itemsService.deleteByKeyValue ["items"] "done" (.bool true) 0) misfiledItems).2.find?
        "items" ⟨"q", "a"⟩ = none) := by
  refine ⟨⟨find?_doneAndDeleted.2, ?_, ?_⟩, ⟨?_, ?_⟩, ?_, ?_⟩
  · decide +kernel
  · decide +kernel
  · rw [Store.find?_put, if_pos ⟨rfl, rfl⟩]
  · decide +kernel
  · decide +kernel
  · decide +kernel

end Service
end DocumentStore
