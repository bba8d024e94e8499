import DocumentStore.Proofs.Query.Layout
import DocumentStore.Proofs.Service.DerivedExpiry
import DocumentStore.Proofs.Service.Filing

/-! Partitions by text and by store.

A search of a partition names it twice: as a string that the partition key is compared with in the text,
and as the value that the store looks for in its keys (`Query.Searches.scope`). The store files an item
under the text of its partition key, which a number or a boolean has as well; compared with a string,
these are never the same. So text and store agree about an item exactly if its partition key holds a
string (`Service.exists_filed_scoped_iff`). -/
namespace DocumentStore
open DocumentStore.Action
open Json (Value)

variable {m : Memory} {registry : Registry} {hashing : HashOrder} {container partition : String}
  {schema : Schema} {s s' : Store} {item : Item}

/-- The comparison of the partition key with the partition, as searches write it, is true of the item. -/
def Schema.Scopes (schema : Schema) (partition : String) (item : Item) : Prop :=
  item.atKeyPath? schema.partitionKeyPath = some (.str partition)

/-! ### What searches ask for -/

theorem Text.segments_replace {old new : Char} {cs : List Char} (h : new ∉ cs) :
    segments new (cs.map fun c => if c = old then new else c) = segments old cs := by
  induction cs with
  | nil => rfl
  | cons c rest ih =>
    obtain ⟨hc, hrest⟩ := not_or.1 (mt List.mem_cons.2 h)
    rw [List.map_cons, segments, segments, ih hrest]
    by_cases hold : c = old
    · simp [hold]
    · simp [hold, Ne.symm hc]

/-- The dotted name that searches compare leads where the partition key path does, unless one of the
names in the path has a dot itself. -/
theorem Item.lookup?_partitionKeyName (h : '.' ∉ schema.partitionKeyPath.toList) (item : Item) :
    item.lookup? schema.partitionKeyName = item.atKeyPath? schema.partitionKeyPath := by
  have hdropped : '.' ∉ (Text.dropLeading '/' schema.partitionKeyPath).toList := by
    rw [Text.dropLeading, String.toList_ofList]
    exact fun hmem => h (List.dropWhile_sublist _ |>.mem hmem)
  unfold lookup? atKeyPath? dotted slashed Text.split Schema.partitionKeyName Text.replaceChar
  rw [String.toList_map, Text.segments_replace hdropped]

/-- A search of a partition compares the partition key with it first of all, and asks the store for the
keys in it. -/
theorem Query.Searches.scope {criteria : Option Criteria} {select : String} {q : Query}
    (h : Searches schema partition criteria select q) :
    (∃ rest, q.text = opening schema select partition ++ rest) ∧ q.partitionValue = some partition := by
  obtain ⟨clause, -, htext, -⟩ := h.layout
  refine ⟨⟨_, htext.trans (String.append_assoc ..)⟩, ?_⟩
  cases h with
  | find h =>
    obtain ⟨base, hbase, h⟩ := Result.bind_eq_ok_iff.1 h
    obtain ⟨_, -, rfl⟩ := inPartition_eq_ok_iff.1 hbase
    cases h
    rfl
  | counting h =>
    obtain ⟨base, hbase, h⟩ := Result.bind_eq_ok_iff.1 h
    obtain ⟨_, -, rfl⟩ := inPartition_eq_ok_iff.1 hbase
    cases h
    rfl

/-! ### What is filed -/

/-- Of a prepared item the comparison with a partition is true exactly if it is the item's partition,
and the item has it as a string. -/
theorem Schema.scopes_iff (h : schema.partitionOf item = .ok partition) {other : String} :
    schema.Scopes other item ↔
      other = partition ∧ ∃ text, item.atKeyPath? schema.partitionKeyPath = some (.str text) := by
  rw [partitionOf_eq_ok_iff] at h
  unfold Scopes
  constructor
  · intro hvalue
    rw [hvalue] at h
    exact ⟨Option.some.inj h, other, hvalue⟩
  · intro htext
    obtain ⟨rfl, text, hvalue⟩ := htext
    rw [hvalue] at h
    rw [hvalue, Option.some.inj h]

namespace Service

/-- **An item of a creation that comes out is filed in the partition that searches of it compare the
partition key with. The comparison is true of what is filed exactly if the partition key of the item holds
a string, and a comparison with another partition never is.** -/
theorem exists_filed_scoped_iff (hget : registry.schemas.get? container = some schema)
    (hroot : schema.partitionRoot ∉ Reserved.systemFields) {items created : List Item}
    (h : outcome ((⟨m.backend, registry, hashing⟩ : Service).create container items) s = (.ok created, s'))
    (hitem : item ∈ items) :
    ∃ p filed, schema.prepare item = .ok p ∧ FiledAs m container s' p filed ∧
      (∀ criteria select q, Query.Searches schema p.1 criteria select q →
        (∃ rest, q.text = Query.opening schema select p.1 ++ rest) ∧ q.partitionValue = some p.1) ∧
      ('.' ∉ schema.partitionKeyPath.toList →
        filed.lookup? schema.partitionKeyName = filed.atKeyPath? schema.partitionKeyPath) ∧
      ∀ partition, schema.Scopes partition filed ↔
        partition = p.1 ∧ ∃ text, p.2.atKeyPath? schema.partitionKeyPath = some (.str text) := by
  obtain ⟨p, filed, hprepare, hfiled⟩ := exists_filedAs_of_create hget h hitem
  refine ⟨p, filed, hprepare, hfiled, fun _ _ _ hsearch => hsearch.scope,
    fun hdots => Item.lookup?_partitionKeyName hdots filed, fun partition => ?_⟩
  obtain ⟨_, n, -, -, rfl⟩ := hfiled
  have hstamped : (p.2.stamped (m.stamp n) container).get? schema.partitionRoot =
      p.2.get? schema.partitionRoot := Item.get?_stamped hroot
  have hsame := Schema.atKeyPath?_congr hstamped
  rw [← Schema.scopes_iff (partitionOf_of_prepare hprepare), Schema.Scopes, Schema.Scopes, hsame]

theorem exists_newItem_scoped : ∃ p filed s', FiledAs {} "items" s' p filed ∧
    fileKey? p = some ⟨"p", "c"⟩ ∧ items.Scopes "p" filed ∧ ¬items.Scopes "7" filed := by
  have hcreate : (outcome (itemsService.create "items" [newItem]) {}).1.isOk = true := by decide +kernel
  obtain ⟨created, s', hcreate⟩ := isOk_outcome_iff.1 hcreate
  obtain ⟨p, filed, hprepare, hfiled, -, -, hscopes⟩ :=
    exists_filed_scoped_iff (m := {}) get?_items (by decide +kernel) hcreate List.mem_cons_self
  have hp : items.prepare newItem = .ok ("p", newItem) := rfl
  obtain rfl := Except.ok.inj (hp.symm.trans hprepare)
  refine ⟨_, filed, s', hfiled, rfl, (hscopes "p").2 ⟨rfl, "p", rfl⟩, fun h => ?_⟩
  exact absurd ((hscopes "7").1 h).1 (by decide)

/-- An item whose partition key is the number 7 is filed in the partition `7`, where a count finds it.
Every search of the partition compares the key with a string, which it is not. -/
theorem exists_filed_not_scoped : ∃ created s' filed,
    outcome (itemsService.create "items" [.ofList [("id", .str "a"), ("pk", .int 7)]]) {} =
      (.ok created, s') ∧
    s'.find? "items" ⟨"7", "a"⟩ = some filed ∧
    (outcome (itemsService.count "items" "7" none) s').1 = .ok 1 ∧
    (∀ criteria select q, Query.Searches items "7" criteria select q →
      ∃ rest, q.text = "SELECT " ++ select ++ " FROM c WHERE c.pk = '7'" ++ rest) ∧
    filed.atKeyPath? items.partitionKeyPath = some (.int 7) ∧ ¬items.Scopes "7" filed := by
  have hkey : items.partitionKeyName = "pk" := by decide +kernel
  have hopening (select : String) : Query.opening items select "7" =
      "SELECT " ++ select ++ " FROM c WHERE c.pk = '7'" := by
    have hend : " FROM c WHERE c." ++ "pk" ++ " = " ++ Literal.quote "7" = " FROM c WHERE c.pk = '7'" :=
      rfl
    rw [Query.opening, hkey, ← hend]
    simp only [String.append_assoc]
  refine ⟨_, _, _, rfl, rfl, rfl, fun _ select _ h => ?_, rfl, fun h => ?_⟩
  · rw [← hopening]
    exact h.scope.1
  · cases (show some (Value.int 7) = some (Value.str "7") from h)

end Service
end DocumentStore
