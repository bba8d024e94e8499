import DocumentStore.Proofs.Criteria.Markers
import DocumentStore.Proofs.Query.Layout
import Mathlib.Data.List.Forall2

/-! Soft deletion in the two halves of a search.

The text of a search tells markers by the names that callers use, the evaluator by the names that
attributes are stored under. So the halves treat soft deletion alike exactly if renaming makes none of
the leaves a marker, and none of the markers a leaf (`Searches.halvesAgree_iff`). -/
namespace DocumentStore.Query

variable {s : Schema} {partition select : String} {criteria : Option Criteria} {q : Query}

/-- The text leaves out soft-deleted items: the guard stands right behind the partition. -/
def CarriesGuard (s : Schema) (select partition : String) (q : Query) : Prop :=
  ∃ rest, q.text = opening s select partition ++ (" AND " ++ notDeletedGuard) ++ rest

/-- The filter leaves out soft-deleted items: it references `isDeleted`. -/
def FilterGuards (q : Query) : Prop :=
  ∃ c, q.filter = some c ∧ c.references Reserved.isDeleted = true

/-- The halves of a query for criteria treat soft deletion alike: both leave out soft-deleted items or
neither does, and leaf by leaf the text has no comparison of those that the evaluator passes over in
the filter, and of no others. -/
structure HalvesAgree (s : Schema) (select partition : String) (criteria : Option Criteria)
    (q : Query) : Prop where
  guard : CarriesGuard s select partition q ↔ FilterGuards q
  leaves : List.Forall₂ (fun l stored => l.comparison? s.aliases = none ↔ stored.IsBlank)
    (leavesOf criteria) (leavesOf q.filter)

/-! ### The guard in the text -/

theorem guardText_of_marker (h : ∃ l ∈ leavesOf criteria, l.name = Reserved.isDeleted) :
    guardText criteria = " AND " ++ notDeletedGuard := by
  cases criteria with
  | none =>
    obtain ⟨l, hl, -⟩ := h
    cases hl
  | some c => rw [guardText, if_pos ((c.references_iff _).2 h)]

theorem guardText_of_no_marker (h : ¬∃ l ∈ leavesOf criteria, l.name = Reserved.isDeleted) :
    guardText criteria = "" := by
  cases criteria with
  | none => rfl
  | some c => rw [guardText, if_neg fun hr => h ((c.references_iff _).1 hr)]

/-- A clause is not taken for the guard: that has one parenthesis, and no path behind it. -/
theorem clauseText_ne_guard {a : Aliases} {clause : Option Clause} {rest : String}
    (hclause : clauseOf? a criteria = .ok clause) :
    clauseText clause ++ closingText q ≠ " AND " ++ notDeletedGuard ++ rest := by
  intro heq
  have heq := congrArg String.toList heq
  cases clause with
  | none =>
    rcases closingText_eq q with hclosing | ⟨behind, hclosing⟩
    · simp [clauseText, hclosing] at heq
    · simp [clauseText, hclosing] at heq
  | some clause =>
    cases criteria with
    | none => cases hclause
    | some c =>
      obtain ⟨n, behind, htext⟩ := Criteria.exists_toList_text_eq hclause
      simp only [clauseText, String.toList_append, htext, notDeletedGuard] at heq
      rcases n with _ | _ | n
      · simp at heq
      · simp at heq
      · simp [List.replicate_succ] at heq

theorem Searches.carriesGuard_iff (h : Searches s partition criteria select q) :
    CarriesGuard s select partition q ↔ ∃ l ∈ leavesOf criteria, l.name = Reserved.isDeleted := by
  obtain ⟨clause, hclause, htext, -⟩ := h.layout
  constructor
  · intro h
    obtain ⟨rest, hrest⟩ := h
    by_contra hno
    rw [htext, guardText_of_no_marker hno, String.empty_append] at hrest
    simp only [String.append_assoc, String.append_right_inj] at hrest
    exact clauseText_ne_guard hclause (by simpa only [String.append_assoc] using hrest)
  · intro hmarker
    refine ⟨clauseText clause ++ closingText q, ?_⟩
    rw [htext, guardText_of_marker hmarker]
    simp only [String.append_assoc]

/-! ### The filter -/

theorem Searches.leavesOf_filter (h : Searches s partition criteria select q) :
    leavesOf q.filter = (leavesOf criteria).map (Leaf.renamed s.aliases.storedName) := by
  obtain ⟨_, -, -, hfilter⟩ := h.layout
  rw [hfilter]
  cases criteria with
  | none => rfl
  | some c => exact c.leaves_mapNames _

theorem filterGuards_iff : FilterGuards q ↔ ∃ l ∈ leavesOf q.filter, l.name = Reserved.isDeleted := by
  unfold FilterGuards
  cases q.filter with
  | none => simp [leavesOf]
  | some c => simp [leavesOf, Criteria.references_iff]

/-- The leaves without a comparison in the text of a search are the markers among them. -/
theorem Searches.comparison?_eq_none_iff (h : Searches s partition criteria select q) {l : Leaf}
    (hl : l ∈ leavesOf criteria) : l.comparison? s.aliases = none ↔ l.isMarker = true := by
  obtain ⟨clause, hclause, -⟩ := h.layout
  cases criteria with
  | none => cases hl
  | some c =>
    cases hm : l.isMarker with
    | true => simp [Leaf.comparison?, hm]
    | false =>
      obtain ⟨_, hleaf⟩ := Criteria.clause_of_mem_leaves hclause hl hm
      obtain ⟨symbol, operand, hsymbol, hoperand, -⟩ := Leaf.clause_eq_ok_iff.1 hleaf
      simp [Leaf.comparison?, hm, hsymbol, hoperand]

/-- **The text of a search compares those of its leaves that are no markers. Its halves treat soft
deletion alike exactly if renaming makes no leaf a marker and no marker another leaf.** -/
theorem Searches.halvesAgree_iff (h : Searches s partition criteria select q) :
    (∃ clause, clauseOf? s.aliases criteria = .ok clause ∧
      q.text = opening s select partition ++ (guardText criteria ++ clauseText clause) ++ closingText q ∧
      Criteria.comparisonsOf clause = (leavesOf criteria).filterMap (Leaf.comparison? s.aliases)) ∧
    (HalvesAgree s select partition criteria q ↔
      ∀ l ∈ leavesOf criteria, l.KeepsMarker s.aliases) := by
  have hleaf : ∀ l ∈ leavesOf criteria,
      (l.comparison? s.aliases = none ↔ (l.renamed s.aliases.storedName).IsBlank) ↔
        l.KeepsMarker s.aliases := by
    intro l hl
    rw [h.comparison?_eq_none_iff hl, Leaf.isBlank_iff, Leaf.isMarker_iff, Leaf.isMarker_renamed_iff]
    exact iff_comm
  have hleaves : List.Forall₂ (fun l stored => l.comparison? s.aliases = none ↔ stored.IsBlank)
      (leavesOf criteria) (leavesOf q.filter) ↔ ∀ l ∈ leavesOf criteria, l.KeepsMarker s.aliases := by
    rw [h.leavesOf_filter, List.forall₂_map_right_iff, List.forall₂_same]
    exact forall₂_congr hleaf
  refine ⟨?_, fun hagree => hleaves.1 hagree.leaves, fun hkeeps => ⟨?_, hleaves.2 hkeeps⟩⟩
  · obtain ⟨clause, hclause, htext, -⟩ := h.layout
    exact ⟨clause, hclause, htext, comparisonsOf_clauseOf? hclause⟩
  · rw [h.carriesGuard_iff, filterGuards_iff, h.leavesOf_filter]
    simp only [List.mem_map, exists_exists_and_eq_and]
    refine exists_congr fun l => and_congr_right fun hl => ?_
    exact (hkeeps l hl).symm

/-- Notes with one attribute that is stored under another name. -/
def notes (name stored : String) : Schema :=
  ({ container := "notes", partitionKeyPath := "/pk" } : Schema).withAlias name stored

/-- A marker beside a leaf on a renamed attribute. -/
def titled : Criteria := .join .and [.notDeleted, .leaf ⟨.eq, "t", some (.string "x"), none⟩]

theorem exists_halvesAgree : ∃ q, Searches (notes "t" "title") "p1" (some titled) "COUNT(1)" q ∧
    HalvesAgree (notes "t" "title") "COUNT(1)" "p1" (some titled) q ∧
    q.text = "SELECT COUNT(1) FROM c WHERE c.pk = 'p1' AND " ++ notDeletedGuard ++
      " AND (c.title = 'x')" := by
  obtain ⟨q, h, htext⟩ : ∃ q, Searches (notes "t" "title") "p1" (some titled) "COUNT(1)" q ∧
      q.text = "SELECT COUNT(1) FROM c WHERE c.pk = 'p1' AND " ++ notDeletedGuard ++
        " AND (c.title = 'x')" := ⟨_, .counting rfl, by decide +kernel⟩
  exact ⟨q, h, (Searches.halvesAgree_iff h).2.2 (by decide), htext⟩

/-- A leaf on an attribute that is stored as `isDeleted`. -/
def notRemoved : Leaf := { op := .eq, name := "removed", operand := some (.boolean false) }

/-- The text compares the attribute and has no guard; the evaluator passes over the leaf and leaves
out soft-deleted items. -/
theorem exists_not_halvesAgree : ∃ q,
    Searches (notes "removed" "isDeleted") "p1" (some (.leaf notRemoved)) "COUNT(1)" q ∧
    q.text = "SELECT COUNT(1) FROM c WHERE c.pk = 'p1' AND c.isDeleted = false" ∧
    ¬CarriesGuard (notes "removed" "isDeleted") "COUNT(1)" "p1" q ∧ FilterGuards q ∧
    notRemoved.comparison? (notes "removed" "isDeleted").aliases ≠ none ∧
    (notRemoved.renamed (notes "removed" "isDeleted").aliases.storedName).IsBlank ∧
    ¬HalvesAgree (notes "removed" "isDeleted") "COUNT(1)" "p1" (some (.leaf notRemoved)) q := by
  obtain ⟨q, h, htext⟩ : ∃ q,
      Searches (notes "removed" "isDeleted") "p1" (some (.leaf notRemoved)) "COUNT(1)" q ∧
      q.text = "SELECT COUNT(1) FROM c WHERE c.pk = 'p1' AND c.isDeleted = false" :=
    ⟨_, .counting rfl, by decide +kernel⟩
  have hmem : notRemoved ∈ leavesOf (some (.leaf notRemoved)) := List.mem_singleton_self _
  have hguard : ¬CarriesGuard (notes "removed" "isDeleted") "COUNT(1)" "p1" q := fun hc => by
    obtain ⟨l, hl, hname⟩ := h.carriesGuard_iff.1 hc
    obtain rfl := List.mem_singleton.1 hl
    exact absurd hname (by decide)
  have hfilter : FilterGuards q := by
    rw [filterGuards_iff, h.leavesOf_filter]
    exact ⟨_, List.mem_map_of_mem hmem, by decide⟩
  refine ⟨q, h, htext, hguard, hfilter, fun hnone => ?_, (Leaf.isBlank_iff _).2 (by decide),
    fun hagree => hguard (hagree.guard.2 hfilter)⟩
  exact absurd ((h.comparison?_eq_none_iff hmem).1 hnone) (by decide)

end DocumentStore.Query
