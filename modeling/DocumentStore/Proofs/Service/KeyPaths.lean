import DocumentStore.Proofs.Filter.NestedPaths
import DocumentStore.Proofs.Service.DeletionEnds
import DocumentStore.Proofs.Service.PartitionScope

/-! The partition key on its two paths.

Creations follow the partition key path with its slashes, deletions by key value the same path with dots.
A name in the path that has a dot itself is one name to the first and several to the second, and no other
path is read in two ways (`Schema.lookup?_partitionKeyName_iff`). So deletions name the keys that creations
file items under as long as the path has no dots (`Service.namesKeys_of_filedIn`); with one, a deletion may
look for its items in partitions where they are not. -/
namespace DocumentStore
open DocumentStore.Action
open Json (Value)

variable {schema : Schema} {container : String} {s : Store}

/-! ### Separators and segments -/

theorem Text.segments_cons_of_ne {sep c : Char} (hc : c ≠ sep) (rest : List Char) : ∃ first others,
    segments sep rest = first :: others ∧ segments sep (c :: rest) = (c :: first) :: others := by
  obtain ⟨first, others, hrest⟩ := List.exists_cons_of_ne_nil (segments_ne_nil sep rest)
  refine ⟨first, others, hrest, ?_⟩
  rw [segments, if_neg hc, hrest]

theorem Text.not_mem_of_mem_segments {sep : Char} {cs seg : List Char} (h : seg ∈ segments sep cs) :
    sep ∉ seg := by
  induction cs generalizing seg with
  | nil =>
    obtain rfl := List.mem_singleton.1 h
    exact List.not_mem_nil
  | cons c rest ih =>
    by_cases hc : c = sep
    · rw [segments, if_pos hc, List.mem_cons] at h
      obtain rfl | h := h
      · exact List.not_mem_nil
      · exact ih h
    · obtain ⟨first, others, hrest, hcons⟩ := segments_cons_of_ne hc rest
      rw [hrest, List.forall_mem_cons] at ih
      rw [hcons, List.mem_cons] at h
      obtain rfl | h := h
      · exact List.not_mem_cons_of_ne_of_not_mem (Ne.symm hc) ih.1
      · exact ih.2 seg h

/-- A character of the text that is no separator is in one of the segments. -/
theorem Text.exists_mem_segments {sep c : Char} {cs : List Char} (hc : c ≠ sep) (h : c ∈ cs) :
    ∃ seg ∈ segments sep cs, c ∈ seg := by
  induction cs with
  | nil => cases h
  | cons d rest ih =>
    by_cases hd : d = sep
    · obtain ⟨seg, hseg, hmem⟩ := ih ((List.mem_cons.1 h).resolve_left (hd ▸ hc))
      rw [segments, if_pos hd]
      exact ⟨seg, List.mem_cons_of_mem _ hseg, hmem⟩
    · obtain ⟨first, others, hrest, hcons⟩ := segments_cons_of_ne hd rest
      rw [hrest] at ih
      rw [hcons]
      obtain hfirst | h := List.mem_cons.1 h
      · exact ⟨d :: first, List.mem_cons_self, hfirst ▸ List.mem_cons_self⟩
      · obtain ⟨seg, hseg, hmem⟩ := ih h
        obtain rfl | hseg := List.mem_cons.1 hseg
        · exact ⟨d :: seg, List.mem_cons_self, List.mem_cons_of_mem _ hmem⟩
        · exact ⟨seg, List.mem_cons_of_mem _ hseg, hmem⟩

/-! ### The two paths -/

/-- Texts that are split into the same segments at different separators hold neither of them. -/
theorem Text.not_mem_of_split_eq {sep sep' : Char} (hsep : sep ≠ sep') {t t' : String}
    (h : split sep t = split sep' t') : sep ∉ t'.toList := by
  intro hmem
  have hsegments : segments sep t.toList = segments sep' t'.toList :=
    List.map_injective_iff.2 (fun _ _ => String.ofList_injective) h
  obtain ⟨seg, hseg, hin⟩ := exists_mem_segments hsep hmem
  rw [← hsegments] at hseg
  exact not_mem_of_mem_segments hseg hin

theorem Text.mem_dropLeading {c d : Char} (hcd : c ≠ d) {t : String} (h : c ∈ t.toList) :
    c ∈ (dropLeading d t).toList := by
  rw [dropLeading, String.toList_ofList]
  rw [← List.takeWhile_append_dropWhile (p := (· == d)) (l := t.toList), List.mem_append] at h
  refine h.resolve_left fun hlead => hcd ?_
  exact beq_iff_eq.1 (List.all_eq_true.1 List.all_takeWhile c hlead)

/-- Two paths lead to the same value in every item only if they are the same. -/
theorem Item.eq_of_at?_eq {names names' : List String} (hne : names ≠ []) (hne' : names' ≠ [])
    (h : ∀ item : Item, item.at? names = item.at? names') : names = names' := by
  obtain ⟨name, rest, rfl⟩ := List.exists_cons_of_ne_nil hne
  obtain ⟨name', rest', rfl⟩ := List.exists_cons_of_ne_nil hne'
  obtain ⟨rfl, rfl⟩ := Item.at?_along_iff.1 ((h _).trans (Item.at?_along_iff.2 ⟨rfl, rfl⟩))
  rfl

theorem Text.split_ne_nil (sep : Char) (t : String) : split sep t ≠ [] :=
  mt List.map_eq_nil_iff.1 (segments_ne_nil _ _)

/-- **The partition key is the same on both paths, in every item, exactly if the partition key path has no
dot.** -/
theorem Schema.lookup?_partitionKeyName_iff (schema : Schema) :
    (∀ item : Item, item.lookup? schema.partitionKeyName = item.atKeyPath? schema.partitionKeyPath) ↔
      '.' ∉ schema.partitionKeyPath.toList := by
  constructor
  · intro hsame hdot
    have hpaths : Item.dotted schema.partitionKeyName = Item.slashed schema.partitionKeyPath :=
      Item.eq_of_at?_eq (Text.split_ne_nil _ _) (Text.split_ne_nil _ _) hsame
    exact Text.not_mem_of_split_eq (by decide) hpaths (Text.mem_dropLeading (by decide) hdot)
  · exact fun hdots item => Item.lookup?_partitionKeyName hdots item

namespace Service

/-- Items in the partitions of a key whose name has a dot. -/
def dottedItems : Schema := { container := "items", partitionKeyPath := "/a.b" }

def dottedService : Service := { backend := ({} : Memory).backend, registry := .ofList [dottedItems] }

def dottedDone : Item := .ofList [("id", .str "a"), ("a.b", .str "p"), ("done", .bool true)]

/-- With the partition key `a.b` an item is filed by what it has under that name. The path with dots leads to
`b` within `a`, where it has nothing; so a deletion by another attribute looks for it in a partition named
after the value of that. -/
theorem exists_key_paths_apart :
    dottedDone.atKeyPath? dottedItems.partitionKeyPath = some (.str "p") ∧
    dottedDone.lookup? dottedItems.partitionKeyName = none ∧
    ∃ created s', outcome (dottedService.create "items" [dottedDone]) {} = (.ok created, s') ∧
      (s'.find? "items" ⟨"p", "a"⟩).isSome = true ∧
      (outcome (dottedService.deleteByKeyValue ["items"] "done" (.bool true) 0) s').1 =
        .error (.notFound "a" "items") :=
  ⟨by decide +kernel, by decide +kernel, _, _, rfl, by decide +kernel, by decide +kernel⟩

/-- Items that are where they belong name their keys, where the partition key path has no dot. -/
theorem namesKeys_of_filedIn (hdots : '.' ∉ schema.partitionKeyPath.toList) (h : s.FiledIn container schema) :
    NamesKeys s container schema := by
  intro key item hitem
  obtain ⟨hid, hpartition⟩ := h key item hitem
  refine ⟨hid, ?_⟩
  rw [Item.lookup?_partitionKeyName hdots]
  exact Schema.partitionOf_eq_ok_iff.1 hpartition

end Service
end DocumentStore
