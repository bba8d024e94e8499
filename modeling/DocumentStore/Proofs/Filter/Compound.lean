import DocumentStore.Proofs.Criteria.Pruning
import DocumentStore.Proofs.Filter.SelfMatch

/-! Compound operators and their parts.

A leaf with the operator In stands for a disjunction of equalities, one with Between for two bounds, and
these may be written in its place (`Leaf.spelledOut`). On every item the parts say together what the leaf
says, and none of them fails (`Leaf.truth?_compound`). Where an attribute is missing, no comparison with a
term other than null is true of it, so Ne is the opposite of Eq on attributes that are there, and there
alone. -/
namespace DocumentStore

variable {l : Leaf} {item : Item} {t low high : Term} {op : Operator}

/-- The scalars of a list are none of them null. -/
theorem Term.ne_null_of_mem_elements (harray : t.isArray = true) {e : Term} (he : e ∈ t.elements) :
    e ≠ .null := by
  rintro rfl
  cases t with
  | strings | integers | doubles | booleans | dates => simp [elements] at he
  | _ => cases harray

theorem Term.ne_null_of_isArray (harray : t.isArray = true) : t ≠ .null := by
  rintro rfl
  cases harray

namespace Leaf

/-- The leaf with another operator and operand, on the same attribute. -/
def testing (l : Leaf) (op : Operator) (t : Term) : Leaf := { l with op, operand := some t }

/-- The comparisons that a compound leaf stands for: an equality for each element of a list, or a lower
and an upper bound. Other leaves, and those whose operand has another shape, stand for themselves. -/
def spelledOut (l : Leaf) : Criteria :=
  match l.op, l.operand with
  | .member, some t =>
    if t.isArray && !t.elements.isEmpty then
      .join .or (t.elements.map fun e => .leaf (l.testing .eq e))
    else .leaf l
  | .between, some t =>
    match t.elements with
    | [low, high] => .join .and [.leaf (l.testing .gte low), .leaf (l.testing .lte high)]
    | _ => .leaf l
  | _, _ => .leaf l

/-- A leaf with an operand other than null is true of an item that has the attribute and passes the test,
and of no other. -/
theorem holds_testing (test : Comparable → Bool) (ht : t ≠ .null)
    (htest : ∀ left, op.holds left t = .ok (test left)) :
    (l.testing op t).holds item = .ok ((item.lookup? l.path).any fun v => test (.ofValue v)) := by
  cases hv : item.lookup? l.path with
  | some v =>
    rw [testing, holds_of_lookup? op ht hv, htest]
    rfl
  | none =>
    have hpath : item.lookup? (l.testing op t).path = none := hv
    unfold holds
    rw [hpath]
    cases t with
    | null => exact absurd rfl ht
    | _ => rfl

end Leaf

/-! ### What the parts say -/

namespace Comparable

/-- The side is not below a lower bound. -/
def isFrom (left : Comparable) (low : Term) : Bool :=
  left.order? (.ofTerm low) == some .gt || left.order? (.ofTerm low) == some .eq

/-- The side is not above an upper bound. -/
def isTo (left : Comparable) (high : Term) : Bool :=
  left.order? (.ofTerm high) == some .lt || left.order? (.ofTerm high) == some .eq

end Comparable

namespace Leaf

/-- What the item has under the path of the leaf equals a term. -/
def equals (l : Leaf) (item : Item) (t : Term) : Bool :=
  (item.lookup? l.path).any fun v => (Comparable.ofValue v).same (.ofTerm t)

theorem holds_eq (ht : t ≠ .null) : (l.testing .eq t).holds item = .ok (l.equals item t) :=
  holds_testing (·.same (.ofTerm t)) ht fun _ => rfl

theorem holds_ne (ht : t ≠ .null) : (l.testing .ne t).holds item =
    .ok ((item.lookup? l.path).isSome && !l.equals item t) := by
  rw [holds_testing (!·.same (.ofTerm t)) ht fun _ => rfl, equals]
  cases item.lookup? l.path <;> rfl

theorem holds_member (harray : t.isArray = true) (hne : t.elements ≠ []) :
    (l.testing .member t).holds item = .ok (t.elements.any (l.equals item)) := by
  have hlist : (t.isArray && !t.elements.isEmpty) = true := by
    rw [harray, Bool.true_and, Bool.not_eq_true', List.isEmpty_eq_false_iff]
    exact hne
  have htest (left : Comparable) : Operator.member.holds left t =
      .ok (t.elements.any fun e => left.same (.ofTerm e)) := if_pos hlist
  rw [holds_testing _ (Term.ne_null_of_isArray harray) htest]
  unfold equals
  cases item.lookup? l.path with
  | none => simp
  | some v => rfl

theorem holds_gte (ht : low ≠ .null) : (l.testing .gte low).holds item =
    .ok ((item.lookup? l.path).any fun v => (Comparable.ofValue v).isFrom low) :=
  holds_testing (·.isFrom low) ht fun _ => rfl

theorem holds_lte (ht : high ≠ .null) : (l.testing .lte high).holds item =
    .ok ((item.lookup? l.path).any fun v => (Comparable.ofValue v).isTo high) :=
  holds_testing (·.isTo high) ht fun _ => rfl

theorem holds_between (harray : t.isArray = true) (hbounds : t.elements = [low, high]) :
    (l.testing .between t).holds item =
      .ok (((item.lookup? l.path).any fun v => (Comparable.ofValue v).isFrom low) &&
        (item.lookup? l.path).any fun v => (Comparable.ofValue v).isTo high) := by
  have htest (left : Comparable) :
      Operator.between.holds left t = .ok (left.isFrom low && left.isTo high) := by
    unfold Operator.holds
    rw [hbounds]
    rfl
  rw [holds_testing _ (Term.ne_null_of_isArray harray) htest]
  cases item.lookup? l.path <;> rfl

theorem truth?_of_holds {b : Bool} (hmarker : l.isMarker = false) (h : l.holds item = .ok b) :
    (Criteria.leaf l).truth? item = .ok (some b) := by
  rw [Criteria.truth?, hmarker, h]
  rfl

/-- A disjunction of leaves that do not fail, and are no markers, is that of what they say. -/
theorem truth?_or {ls : List Leaf} {verdict : Leaf → Bool} (hne : ls ≠ [])
    (h : ∀ l ∈ ls, l.isMarker = false ∧ l.holds item = .ok (verdict l)) :
    (Criteria.join .or (ls.map .leaf)).truth? item = .ok (some (ls.any verdict)) := by
  have hpruned : ∀ l ∈ ls, (Criteria.pruned ∘ .leaf) l = some (.leaf l) := by
    intro l hl
    rw [Function.comp_apply, Criteria.pruned, (h l hl).1]
    rfl
  have hkept : Criteria.allPruned (ls.map .leaf) = ls.map .leaf := by
    rw [Criteria.allPruned_eq_filterMap, List.filterMap_map, List.filterMap_congr hpruned,
      ← List.filterMap_eq_map]
    rfl
  have hterms : ∀ c ∈ ls.map Criteria.leaf, c.truth? item = .ok (c.pruned.map (Criteria.value verdict)) := by
    intro c hc
    obtain ⟨l, hl, rfl⟩ := List.mem_map.1 hc
    rw [truth?_of_holds (h l hl).1 (h l hl).2, show (Criteria.leaf l).pruned = _ from hpruned l hl]
    rfl
  have hsome : (ls.map Criteria.leaf).isEmpty = false := by
    rw [List.isEmpty_eq_false_iff, ne_eq, List.map_eq_nil_iff]
    exact hne
  rw [Criteria.truth?, Criteria.any?_eq hterms, hkept]
  unfold Criteria.joinValue
  rw [hsome, List.any_map]
  rfl

/-- In says what the equalities with the elements say together. -/
theorem truth?_member (hmarker : l.isMarker = false) (harray : t.isArray = true)
    (hne : t.elements ≠ []) (item : Item) : ∃ b,
      (Criteria.leaf (l.testing .member t)).truth? item = .ok (some b) ∧
      (Criteria.join .or (t.elements.map fun e => .leaf (l.testing .eq e))).truth? item =
        .ok (some b) := by
  have hleaves : ∀ l' ∈ t.elements.map (l.testing .eq), l'.isMarker = false ∧
      l'.holds item = .ok (l.equals item (l'.operand.getD .null)) := by
    intro l' hl'
    obtain ⟨e, he, rfl⟩ := List.mem_map.1 hl'
    exact ⟨hmarker, holds_eq (Term.ne_null_of_mem_elements harray he)⟩
  have hparts := truth?_or (by rwa [ne_eq, List.map_eq_nil_iff]) hleaves
  rw [List.map_map, List.any_map] at hparts
  exact ⟨_, truth?_of_holds hmarker (holds_member harray hne), hparts⟩

/-- Between says what the two bounds say together. -/
theorem truth?_between (hmarker : l.isMarker = false) (harray : t.isArray = true)
    (hbounds : t.elements = [low, high]) (item : Item) : ∃ b,
      (Criteria.leaf (l.testing .between t)).truth? item = .ok (some b) ∧
      (Criteria.join .and [.leaf (l.testing .gte low), .leaf (l.testing .lte high)]).truth? item =
        .ok (some b) := by
  have hlow : low ≠ .null := Term.ne_null_of_mem_elements harray (by simp [hbounds])
  have hhigh : high ≠ .null := Term.ne_null_of_mem_elements harray (by simp [hbounds])
  refine ⟨_, truth?_of_holds hmarker (holds_between harray hbounds), ?_⟩
  rw [Criteria.truth?, Criteria.all?, truth?_of_holds (l := l.testing .gte low) hmarker (holds_gte hlow),
    Criteria.all?, truth?_of_holds (l := l.testing .lte high) hmarker (holds_lte hhigh), Criteria.all?]
  cases (item.lookup? l.path).any fun v => (Comparable.ofValue v).isFrom low <;>
    cases (item.lookup? l.path).any fun v => (Comparable.ofValue v).isTo high <;> rfl

/-- A leaf stands for itself, for the equalities with the elements of its list, or for its bounds. -/
theorem spelledOut_cases (l : Leaf) :
    l.spelledOut = .leaf l ∨
    (∃ t, l = l.testing .member t ∧ t.isArray = true ∧ t.elements ≠ [] ∧
      l.spelledOut = .join .or (t.elements.map fun e => .leaf (l.testing .eq e))) ∨
    ∃ t low high, l = l.testing .between t ∧ t.isArray = true ∧ t.elements = [low, high] ∧
      l.spelledOut = .join .and [.leaf (l.testing .gte low), .leaf (l.testing .lte high)] := by
  obtain ⟨op, name, operand, parent⟩ := l
  unfold spelledOut
  split
  · next t hop hoperand =>
    obtain rfl : op = .member := hop
    obtain rfl : operand = some t := hoperand
    split
    · next hlist =>
      obtain ⟨harray, hsome⟩ := Bool.and_eq_true_iff.1 hlist
      rw [Bool.not_eq_true', List.isEmpty_eq_false_iff] at hsome
      exact .inr (.inl ⟨t, rfl, harray, hsome, rfl⟩)
    · exact .inl rfl
  · next t hop hoperand =>
    obtain rfl : op = .between := hop
    obtain rfl : operand = some t := hoperand
    split
    · next low high hbounds =>
      have harray : t.isArray = true := by
        cases t with
        | strings | integers | doubles | booleans | dates => rfl
        | _ => cases hbounds
      exact .inr (.inr ⟨t, low, high, rfl, harray, hbounds, rfl⟩)
    · exact .inl rfl
  · exact .inl rfl

/-- Spelling a leaf out leaves it on the attribute that it is on. -/
theorem leaves_spelledOut (l : Leaf) :
    ∃ l₁ rest, l.spelledOut.leaves = l₁ :: rest ∧ ∀ l' ∈ l₁ :: rest, l'.name = l.name := by
  obtain h | ⟨t, -, -, hne, h⟩ | ⟨t, low, high, -, -, -, h⟩ := l.spelledOut_cases
  · exact ⟨l, [], by rw [h, Criteria.leaves_leaf], by simp⟩
  · obtain ⟨e, es, helements⟩ := List.exists_cons_of_ne_nil hne
    refine ⟨l.testing .eq e, es.map (l.testing .eq), ?_, by simp [testing]⟩
    rw [h, helements, Criteria.leaves_join, List.flatMap_map]
    simp only [Criteria.leaves_leaf, List.flatMap_cons, List.singleton_append]
    rw [List.map_eq_flatMap]
  · exact ⟨l.testing .gte low, [l.testing .lte high], by rw [h]; rfl, by simp [testing]⟩

/-- A leaf spelled out says of every item what the leaf says, faults included. -/
theorem truth?_spelledOut (l : Leaf) (item : Item) :
    l.spelledOut.truth? item = (Criteria.leaf l).truth? item := by
  cases hmarker : l.isMarker with
  | true =>
    -- The parts of a marker are markers, so both sides are blank.
    obtain ⟨l₁, rest, hleaves, hnames⟩ := l.leaves_spelledOut
    have hmarkers : ∀ l' ∈ l.spelledOut.leaves, l'.isMarker = true := by
      intro l' hl'
      rw [hleaves] at hl'
      rw [isMarker, hnames l' hl']
      exact hmarker
    have hblank : l.spelledOut.truth? item = .ok none := by
      rw [Criteria.truth?_eq_value_pruned fun l' hl' h => absurd ((hmarkers l' hl').symm.trans h) nofun,
        (Criteria.pruned_eq_none_iff _).2 hmarkers]
      rfl
    rw [hblank, Criteria.truth?, hmarker]
    rfl
  | false =>
    obtain h | ⟨t, hl, harray, hne, h⟩ | ⟨t, low, high, hl, harray, hbounds, h⟩ := l.spelledOut_cases
    · rw [h]
    · obtain ⟨b, hleaf, hparts⟩ := truth?_member hmarker harray hne item
      rw [h, hparts, ← hleaf, ← hl]
    · obtain ⟨b, hleaf, hparts⟩ := truth?_between hmarker harray hbounds item
      rw [h, hparts, ← hleaf, ← hl]

end Leaf

namespace Criteria

mutual
/-- The tree with its compound leaves spelled out. -/
def spelledOut : Criteria → Criteria
  | leaf l => l.spelledOut
  | join op terms parent => join op (allSpelledOut terms) parent
def allSpelledOut : List Criteria → List Criteria
  | [] => []
  | t :: rest => t.spelledOut :: allSpelledOut rest
end

theorem all?_allSpelledOut {terms : List Criteria}
    (h : ∀ t ∈ terms, t.spelledOut.truth? item = t.truth? item) :
    all? item (allSpelledOut terms) = all? item terms := by
  induction terms with
  | nil => rfl
  | cons t rest ih =>
    obtain ⟨ht, hrest⟩ := List.forall_mem_cons.1 h
    rw [allSpelledOut, all?, all?, ht, ih hrest]

theorem any?_allSpelledOut {terms : List Criteria}
    (h : ∀ t ∈ terms, t.spelledOut.truth? item = t.truth? item) :
    any? item (allSpelledOut terms) = any? item terms := by
  induction terms with
  | nil => rfl
  | cons t rest ih =>
    obtain ⟨ht, hrest⟩ := List.forall_mem_cons.1 h
    rw [allSpelledOut, any?, any?, ht, ih hrest]

/-- Compound leaves may be spelled out wherever they stand. -/
theorem truth?_spelledOut (c : Criteria) (item : Item) : c.spelledOut.truth? item = c.truth? item := by
  induction c with
  | leaf l => exact l.truth?_spelledOut item
  | join op terms parent ih =>
    cases op with
    | and => rw [spelledOut, truth?, truth?, all?_allSpelledOut ih]
    | or => rw [spelledOut, truth?, truth?, any?_allSpelledOut ih]

theorem references_spelledOut (name : String) (c : Criteria) :
    c.spelledOut.references name = c.references name := by
  induction c with
  | leaf l =>
    obtain ⟨l₁, rest, hleaves, hnames⟩ := l.leaves_spelledOut
    rw [spelledOut, Bool.eq_iff_iff, references_iff, references_iff, hleaves]
    constructor
    · intro h
      obtain ⟨l', hl', rfl⟩ := h
      exact ⟨l, List.mem_singleton_self l, (hnames l' hl').symm⟩
    · intro h
      obtain ⟨l', hl', rfl⟩ := h
      obtain rfl := List.mem_singleton.1 hl'
      exact ⟨l₁, List.mem_cons_self, hnames l₁ List.mem_cons_self⟩
  | join op terms parent ih =>
    rw [spelledOut, references, references]
    clear op parent
    induction terms with
    | nil => rfl
    | cons t rest ihr =>
      obtain ⟨ht, hrest⟩ := List.forall_mem_cons.1 ih
      rw [allSpelledOut, anyReferences, anyReferences, ht, ihr hrest]

/-- A filter keeps the same items when its compound leaves are spelled out. -/
theorem keeps_spelledOut (c : Criteria) (item : Item) :
    keeps (some c.spelledOut) item = keeps (some c) item := by
  rw [keeps, keeps, references_spelledOut, admits, admits, truth?_spelledOut]

end Criteria

namespace Leaf

/-- **Compound operators mean what their parts mean.** On every item, In a list is the disjunction of the
equalities with its elements, and Between two bounds is the conjunction of the bounds; neither ever fails.
Equality and inequality with a term other than null are opposite on an attribute that is there, and both
false on one that is not. So a filter keeps the same items when its compound leaves are spelled out,
however deep they stand. -/
theorem truth?_compound (hname : l.name ≠ Reserved.isDeleted) (item : Item) :
    (∀ t, t.isArray = true → t.elements ≠ [] → ∃ b,
      (Criteria.leaf (l.testing .member t)).truth? item = .ok (some b) ∧
      (Criteria.join .or (t.elements.map fun e => .leaf (l.testing .eq e))).truth? item =
        .ok (some b)) ∧
    (∀ t low high, t.isArray = true → t.elements = [low, high] → ∃ b,
      (Criteria.leaf (l.testing .between t)).truth? item = .ok (some b) ∧
      (Criteria.join .and [.leaf (l.testing .gte low), .leaf (l.testing .lte high)]).truth? item =
        .ok (some b)) ∧
    (∀ t, t ≠ .null → ∃ equal unequal,
      (Criteria.leaf (l.testing .eq t)).truth? item = .ok (some equal) ∧
      (Criteria.leaf (l.testing .ne t)).truth? item = .ok (some unequal) ∧
      ((item.lookup? l.path).isSome = true → unequal = !equal) ∧
      (item.lookup? l.path = none → equal = false ∧ unequal = false)) ∧
    ∀ c : Criteria, keeps (some c.spelledOut) item = keeps (some c) item := by
  have hmarker : l.isMarker = false := beq_false_of_ne hname
  refine ⟨fun t harray hne => truth?_member hmarker harray hne item,
    fun t low high harray hbounds => truth?_between hmarker harray hbounds item, fun t ht => ?_,
    fun c => c.keeps_spelledOut item⟩
  refine ⟨_, _, truth?_of_holds (l := l.testing .eq t) hmarker (holds_eq ht),
    truth?_of_holds (l := l.testing .ne t) hmarker (holds_ne ht), fun hsome => ?_, fun hnone => ?_⟩
  · rw [hsome, Bool.true_and]
  · rw [equals, hnone]
    exact ⟨rfl, rfl⟩

/-- A leaf on the date of an event, whatever it is compared with. -/
def eventLeaf : Leaf := { op := .eq, name := "at", operand := none, parent := some "event" }

/-- An item whose event is at the start of the year 2024 in UTC, written an hour east of it. -/
def eventItem : Item := .ofList [("event", .obj [("at", .str "2024-01-01T01:00:00+01:00")])]

theorem truth?_compound_zoned :
    (Criteria.leaf (eventLeaf.testing .member (.dates [newYear]))).truth? eventItem =
      .ok (some true) ∧
    (Criteria.join .or [.leaf (eventLeaf.testing .eq (.date newYear))]).truth? eventItem =
      .ok (some true) ∧
    (Criteria.leaf (eventLeaf.testing .between (.dates [newYear, newYear]))).truth? eventItem =
      .ok (some true) ∧
    (Criteria.leaf (eventLeaf.testing .ne (.date newYear))).truth? eventItem = .ok (some false) := by
  obtain ⟨hmember, hbetween, hequal, -⟩ :=
    truth?_compound (l := eventLeaf) (by decide) eventItem
  obtain ⟨b, hlist, hparts⟩ := hmember (.dates [newYear]) rfl nofun
  obtain ⟨b', hbounded, -⟩ := hbetween (.dates [newYear, newYear]) _ _ rfl rfl
  obtain ⟨equal, unequal, heq, hne, hopposite, -⟩ := hequal (.date newYear) nofun
  obtain rfl : b = true := by cases hlist; rfl
  obtain rfl : b' = true := by cases hbounded; rfl
  obtain rfl : equal = true := by cases heq; rfl
  refine ⟨hlist, hparts, hbounded, hne.trans ?_⟩
  rw [hopposite (by decide +kernel)]
  rfl

end Leaf
end DocumentStore
