import DocumentStore.Proofs.Criteria.Pruning
import DocumentStore.Proofs.Store.Results
import DocumentStore.Query.Search

/-! The guard against soft-deleted items, in query text and in memory.

Query text asks that `isDeleted` be missing or false. The evaluator leaves out the items in which it is
true, and keeps of the others what the criteria without their markers keep (`select_of_references`). So the
two come to the same items as long as `isDeleted` is missing, true or false in those that the rest of the
filter keeps (`select_eq_guarded_iff`). -/
namespace DocumentStore

/-! ### The guard in query text -/

/-- A condition of query text on `isDeleted`. -/
inductive MarkerCondition where
  | isDefined (b : Bool)
  | equals (b : Bool)
  | either (first second : MarkerCondition)

namespace MarkerCondition

def text : MarkerCondition → String
  | isDefined b => "IS_DEFINED(c.isDeleted) = " ++ Term.boolText b
  | equals b => "c.isDeleted = " ++ Term.boolText b
  | either first second => "(" ++ first.text ++ " OR " ++ second.text ++ ")"

/-- The condition is true of an item. A missing attribute equals nothing, and a value nothing of another
type. -/
def holds (item : Item) : MarkerCondition → Bool
  | isDefined b => (item.get? Reserved.isDeleted).isSome == b
  | equals b => item.get? Reserved.isDeleted == some (.bool b)
  | either first second => first.holds item || second.holds item

/-- What searches and counts ask for where their criteria hold a marker. -/
def notDeleted : MarkerCondition := either (isDefined false) (equals false)

theorem text_notDeleted : notDeleted.text = Query.notDeletedGuard := rfl

end MarkerCondition

/-- `isDeleted` is missing, true or false. -/
def Item.marksPlainly (item : Item) : Bool :=
  match item.get? Reserved.isDeleted with
  | none | some (.bool _) => true
  | _ => false

/-- The evaluator goes by what is not true and the text by what is missing or false, which is the same but
for values of other types. -/
theorem Item.holds_notDeleted_eq_iff (item : Item) :
    MarkerCondition.notDeleted.holds item = !item.isDeleted ↔ item.marksPlainly = true := by
  unfold isDeleted marksPlainly
  simp only [MarkerCondition.notDeleted, MarkerCondition.holds]
  cases item.get? Reserved.isDeleted with
  | none => simp
  | some v =>
    cases v with
    | bool b => cases b <;> simp
    | null | num | str | arr | obj => simp

/-! ### The guard in memory -/

variable {c rest : Criteria} {item : Item} {items : List Item}

namespace Criteria

theorem all?_allPruned {terms : List Criteria} (h : ∀ t ∈ terms, t.truth? item =
      (t.pruned.map (truth? item)).getD (.ok none)) : all? item (allPruned terms) = all? item terms := by
  induction terms with
  | nil => rfl
  | cons t rest ih =>
    obtain ⟨ht, hrest⟩ := List.forall_mem_cons.1 h
    rw [allPruned, all?, ht, ← ih hrest]
    cases t.pruned <;> rfl

theorem any?_allPruned {terms : List Criteria} (h : ∀ t ∈ terms, t.truth? item =
      (t.pruned.map (truth? item)).getD (.ok none)) : any? item (allPruned terms) = any? item terms := by
  induction terms with
  | nil => rfl
  | cons t rest ih =>
    obtain ⟨ht, hrest⟩ := List.forall_mem_cons.1 h
    rw [allPruned, any?, ht, ← ih hrest]
    cases t.pruned <;> rfl

/-- **The evaluator says of a tree what it says of the tree without markers, faults included.** -/
theorem truth?_eq_truth?_pruned (c : Criteria) (item : Item) :
    c.truth? item = (c.pruned.map (truth? item)).getD (.ok none) := by
  induction c with
  | leaf l => cases hm : l.isMarker <;> simp [truth?, pruned, hm]
  | join op terms parent ih =>
    have hsame : (join op terms parent).truth? item = (join op (allPruned terms) parent).truth? item := by
      cases op with
      | and => rw [truth?, truth?, all?_allPruned ih]
      | or => rw [truth?, truth?, any?_allPruned ih]
    rw [hsame, pruned]
    split
    · next hempty =>
      rw [List.isEmpty_iff.1 hempty]
      cases op <;> rfl
    · rfl

/-- What is left of a tree holds no marker. -/
theorem references_of_pruned (h : c.pruned = some rest) : rest.references Reserved.isDeleted = false := by
  rw [Bool.eq_false_iff]
  intro href
  obtain ⟨l, hl, hname⟩ := (references_iff _ rest).1 href
  have hmarker := (mem_leaves_of_pruned h hl).2
  simp [Leaf.isMarker, hname] at hmarker

theorem admits_eq_keeps_pruned (c : Criteria) (item : Item) : c.admits item = keeps c.pruned item := by
  rw [admits, truth?_eq_truth?_pruned]
  cases h : c.pruned with
  | none => rfl
  | some rest =>
    rw [keeps, references_of_pruned h]
    rfl

end Criteria

theorem kept_of_references (hc : c.references Reserved.isDeleted = true) (item : Item) :
    kept (some c) item = (!item.isDeleted && kept c.pruned item) := by
  unfold kept
  rw [keeps, hc, Criteria.admits_eq_keeps_pruned]
  cases item.isDeleted <;> rfl

theorem select_filter_isDeleted (hc : c.references Reserved.isDeleted = true) (items : List Item) :
    select (some c) (items.filter (!·.isDeleted)) = select (some c) items := by
  induction items with
  | nil => rfl
  | cons item rest ih =>
    by_cases hdeleted : item.isDeleted = true
    · have hdrops : keeps (some c) item = .ok false := by simp [keeps, hc, hdeleted]
      rw [List.filter_cons_of_neg (by simp [hdeleted]), ih, select, hdrops]
      exact (bind_pure (select (some c) rest)).symm
    · rw [List.filter_cons_of_pos (by simpa using hdeleted), select, select, ih]

/-- **Of items that are not marked, criteria with a marker select what is selected by the criteria without
their markers, and fail where these do; of the marked ones, nothing.** -/
theorem select_of_references (hc : c.references Reserved.isDeleted = true) (items : List Item) :
    select (some c) items = select c.pruned (items.filter (!·.isDeleted)) := by
  have hlive : ∀ item ∈ items.filter (!·.isDeleted), keeps (some c) item = keeps c.pruned item := by
    intro item hitem
    have hmarked : item.isDeleted = false := by simpa using (List.mem_filter.1 hitem).2
    rw [keeps, hmarked, Bool.and_false, ← Criteria.admits_eq_keeps_pruned]
    rfl
  rw [← select_filter_isDeleted hc]
  generalize items.filter (!·.isDeleted) = live at hlive
  induction live with
  | nil => rfl
  | cons item rest ih =>
    obtain ⟨hitem, hrest⟩ := List.forall_mem_cons.1 hlive
    rw [select, select, hitem, ih hrest]

/-- **What criteria with a marker select, faults included; and that is what the guard of query text and the
rest of the filter are true of, exactly if `isDeleted` is missing, true or false in every item that the rest
of the filter keeps.** -/
theorem select_eq_guarded_iff (hc : c.references Reserved.isDeleted = true) (items : List Item) :
    MarkerCondition.notDeleted.text = Query.notDeletedGuard ∧
    select (some c) items = select c.pruned (items.filter (!·.isDeleted)) ∧
    ∀ found, select (some c) items = .ok found →
      (found = items.filter (fun item => MarkerCondition.notDeleted.holds item && kept c.pruned item) ↔
        ∀ item ∈ items, kept c.pruned item = true → item.marksPlainly = true) := by
  refine ⟨MarkerCondition.text_notDeleted, select_of_references hc items, fun found hfound => ?_⟩
  have hfilter : found = items.filter fun item => !item.isDeleted && kept c.pruned item := by
    rw [select_eq_filter hfound]
    exact List.filter_congr fun item _ => kept_of_references hc item
  rw [hfilter]
  constructor
  · intro hsame item hitem hkept
    rw [← item.holds_notDeleted_eq_iff, Bool.eq_iff_iff]
    have hmem : item ∈ items.filter (fun item => !item.isDeleted && kept c.pruned item) ↔ item ∈
        items.filter fun item => MarkerCondition.notDeleted.holds item && kept c.pruned item := by
      rw [hsame]
    simpa [List.mem_filter, hitem, hkept] using hmem.symm
  · intro hplain
    refine List.filter_congr fun item hitem => ?_
    cases hkept : kept c.pruned item with
    | false => rw [Bool.and_false, Bool.and_false]
    | true => rw [item.holds_notDeleted_eq_iff.2 (hplain item hitem hkept)]

/-- Open items that are not soft-deleted, the marker given twice. -/
def openItems : Criteria :=
  .join .and [
    .join .or [.notDeleted],
    .join .or [.leaf { op := .eq, name := "status", operand := some (.string "open") }, .notDeleted]]

/-- Items of every mark that the two guards agree on, and one that the rest of the filter drops. -/
def markedItems : List Item := [
  .ofList [("id", .str "a"), ("status", .str "open")],
  .ofList [("id", .str "b"), ("status", .str "open"), ("isDeleted", .bool true)],
  .ofList [("id", .str "c"), ("status", .str "open"), ("isDeleted", .bool false)],
  .ofList [("id", .str "d"), ("status", .str "shut"), ("isDeleted", .null)]]

theorem select_openItems :
    select (some openItems) markedItems = .ok [
      .ofList [("id", .str "a"), ("status", .str "open")],
      .ofList [("id", .str "c"), ("status", .str "open"), ("isDeleted", .bool false)]] ∧
    select (some openItems) markedItems = .ok (markedItems.filter fun item =>
      MarkerCondition.notDeleted.holds item && kept openItems.pruned item) := by
  obtain ⟨-, hselect, hguarded⟩ := select_eq_guarded_iff (c := openItems) (by decide) markedItems
  have hfound : select (some openItems) markedItems = .ok [
      .ofList [("id", .str "a"), ("status", .str "open")],
      .ofList [("id", .str "c"), ("status", .str "open"), ("isDeleted", .bool false)]] := hselect.trans rfl
  refine ⟨hfound, ?_⟩
  rw [← (hguarded _ hfound).2 (by decide +kernel)]
  exact hfound

/-- An item in which `isDeleted` is null is kept, and the guard of query text is not true of it. -/
theorem exists_kept_unguarded :
    select (some .notDeleted) [.ofList [("isDeleted", .null)]] = .ok [.ofList [("isDeleted", .null)]] ∧
      MarkerCondition.notDeleted.holds (.ofList [("isDeleted", .null)]) = false :=
  ⟨rfl, rfl⟩

end DocumentStore
