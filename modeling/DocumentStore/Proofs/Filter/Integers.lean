import DocumentStore.Proofs.Double.Integers
import DocumentStore.Proofs.Filter.SelfMatch

/-! Integers compared with integers.

Integers are kept as they are, in items and in terms, but compared as the doubles nearest to them. So the
operators go by the nearest doubles, and by the integers themselves as long as one of the two has at most
53 bits (`Leaf.admits_integers`). Of larger ones two that differ may be taken for equal, though never for
greater where they are smaller (`Double.nearestInt_mono`). -/
namespace DocumentStore
open Json (Value)
open Double (nearestInt)

/-- An integer of the signed 64-bit range. -/
def Word.IsSigned (n : Int) : Prop := -signedEnd ≤ n ∧ n < signedEnd

instance (n : Int) : Decidable (Word.IsSigned n) := inferInstanceAs (Decidable (_ ∧ _))

/-- The relation between integers that an operator stands for. -/
def Operator.relation? : Operator → Option (Int → Int → Bool)
  | .eq => some fun a b => a = b
  | .ne => some fun a b => a ≠ b
  | .lt => some fun a b => a < b
  | .lte => some fun a b => a ≤ b
  | .gt => some fun a b => a > b
  | .gte => some fun a b => a ≥ b
  | _ => none

variable {a b : Int} {bs : List Int} {item : Item}

theorem Word.IsSigned.natAbs_lt (h : Word.IsSigned a) : a.natAbs < Word.unsignedEnd := by
  obtain ⟨hfirst, hlast⟩ := h
  unfold Word.signedEnd at hfirst hlast
  unfold Word.unsignedEnd
  omega

/-- The relations are about the order of the integers alone. -/
theorem Operator.relation_congr {op : Operator} {r : Int → Int → Bool} {a' b' : Int}
    (hr : op.relation? = some r) (h : compare a b = compare a' b') : r a b = r a' b' := by
  have heq : a = b ↔ a' = b' := by rw [← Int.compare_eq_eq, h, Int.compare_eq_eq]
  have hlt : a < b ↔ a' < b' := by rw [← Int.compare_eq_lt, h, Int.compare_eq_lt]
  cases op with
  | eq | ne | lt | lte | gt | gte =>
    cases hr
    exact decide_eq_decide.2 (by omega)
  | _ => cases hr

/-! ### Terms -/

theorem Term.ofValue_int (hb : Word.IsSigned b) : ofValue (.int b) = .ok (.integer b) := by
  have hsigned : (Json.Number.int b).signed? = some b := if_pos hb
  show Except.ok (ofNumber (.int b)) = _
  rw [ofNumber, hsigned]

/-- An array of integers is read as the list of them. -/
theorem Term.ofValue_ints (hbs : ∀ x ∈ b :: bs, Word.IsSigned x) :
    ofValue (.arr ((b :: bs).map .int)) = .ok (.integers (b :: bs)) := by
  have helement (x : Int) (hx : Word.IsSigned x) : ofElement .integer pickInteger (.int x) = .ok x := by
    have hscalar : ofScalar (.int x) = .ok (.integer x) := ofValue_int hx
    rw [ofElement, hscalar]
    rfl
  have hread : ((b :: bs).map Value.int).mapM (ofElement .integer pickInteger) = .ok (b :: bs) := by
    rw [Result.mapM_eq_ok_iff, List.forall₂_map_left_iff, List.forall₂_same]
    exact fun x hx => helement x (hbs x hx)
  have hfirst : ofScalar (.int b) = .ok (.integer b) := ofValue_int (hbs b List.mem_cons_self)
  rw [List.map_cons] at hread
  rw [ofValue, List.map_cons, ofArray, hfirst]
  exact congrArg (integers <$> ·) hread

/-! ### Comparisons -/

theorem Comparable.same_integer (ha : Word.IsSigned a) (hb : Word.IsSigned b) :
    (ofValue (.int a)).same (ofTerm (.integer b)) = decide (nearestInt a = nearestInt b) :=
  Double.beq_ofInt ha.natAbs_lt hb.natAbs_lt

theorem Operator.holds_integer {op : Operator} {r : Int → Int → Bool} (hr : op.relation? = some r)
    (ha : Word.IsSigned a) (hb : Word.IsSigned b) :
    op.holds (.ofValue (.int a)) (.integer b) = .ok (r (nearestInt a) (nearestInt b)) := by
  have hsame := Comparable.same_integer ha hb
  have horder : (Comparable.ofValue (.int a)).order? (.ofTerm (.integer b)) =
      some (compare (nearestInt a) (nearestInt b)) :=
    Double.floatOrder?_ofInt ha.natAbs_lt hb.natAbs_lt
  unfold holds
  rw [hsame, horder]
  cases op with
  | eq =>
    cases hr
    rfl
  | ne =>
    cases hr
    exact congrArg Except.ok decide_not.symm
  | lt | gt =>
    cases hr
    refine congrArg Except.ok (Bool.eq_iff_iff.2 ?_)
    simp only [beq_iff_eq, Option.some.injEq, decide_eq_true_iff, Int.compare_eq_lt, Int.compare_eq_gt]
  | lte | gte =>
    cases hr
    refine congrArg Except.ok (Bool.eq_iff_iff.2 ?_)
    simp only [Bool.or_eq_true, beq_iff_eq, Option.some.injEq, decide_eq_true_iff, Int.compare_eq_lt,
      Int.compare_eq_eq, Int.compare_eq_gt]
    omega
  | _ => cases hr

theorem any_congr_of_mem {xs : List α} {p q : α → Bool} (h : ∀ x ∈ xs, p x = q x) :
    xs.any p = xs.any q := by
  rw [Bool.eq_iff_iff, List.any_eq_true, List.any_eq_true]
  exact exists_congr fun x => and_congr_right fun hx => by rw [h x hx]

/-- Membership asks for equality with one of the elements. -/
theorem Operator.holds_integers (ha : Word.IsSigned a) (hbs : ∀ x ∈ b :: bs, Word.IsSigned x) :
    Operator.member.holds (.ofValue (.int a)) (.integers (b :: bs)) =
      .ok ((b :: bs).any fun x => nearestInt a = nearestInt x) := by
  have hany : ((Term.integers (b :: bs)).elements.any fun t =>
      (Comparable.ofValue (.int a)).same (.ofTerm t)) =
        (b :: bs).any fun x => nearestInt a = nearestInt x := by
    show (((b :: bs).map Term.integer).any _) = _
    rw [List.any_map]
    exact any_congr_of_mem fun x hx => Comparable.same_integer ha (hbs x hx)
  exact congrArg Except.ok hany

/-! ### Leaves -/

/-- **An integer is compared with integers as the doubles nearest to them are, and so as it is where it or
they have at most 53 bits.** -/
theorem Leaf.admits_integers {l : Leaf} (hmarker : l.isMarker = false) (ha : Word.IsSigned a)
    (hv : item.lookup? l.path = some (.int a)) :
    (∀ b, Word.IsSigned b → Term.ofValue (.int b) = .ok (.integer b) ∧
      ∀ op r, op.relation? = some r →
        (Criteria.leaf { l with op, operand := some (.integer b) }).admits item =
            .ok (r (nearestInt a) (nearestInt b)) ∧
          (a.natAbs < 2 ^ 53 ∨ b.natAbs < 2 ^ 53 → r (nearestInt a) (nearestInt b) = r a b)) ∧
    (∀ b bs, (∀ x ∈ b :: bs, Word.IsSigned x) →
      Term.ofValue (.arr ((b :: bs).map .int)) = .ok (.integers (b :: bs)) ∧
        (Criteria.leaf { l with op := .member, operand := some (.integers (b :: bs)) }).admits item =
            .ok ((b :: bs).any fun x => nearestInt a = nearestInt x) ∧
          ((∀ x ∈ b :: bs, a.natAbs < 2 ^ 53 ∨ x.natAbs < 2 ^ 53) →
            ((b :: bs).any fun x => nearestInt a = nearestInt x) = (b :: bs).contains a)) := by
  constructor
  · intro b hb
    refine ⟨Term.ofValue_int hb, fun op r hr => ⟨admits_of_holds hmarker ?_, fun hsmall => ?_⟩⟩
    · rw [holds_of_lookup? op Term.noConfusion hv, Operator.holds_integer hr ha hb]
    · exact Operator.relation_congr hr (Double.compare_nearestInt hsmall)
  · intro b bs hbs
    refine ⟨Term.ofValue_ints hbs, admits_of_holds hmarker ?_, fun hsmall => ?_⟩
    · rw [holds_of_lookup? .member Term.noConfusion hv, Operator.holds_integers ha hbs]
    · have hequal : Operator.relation? .eq = some fun a b => decide (a = b) := rfl
      rw [List.contains_eq_any_beq]
      refine any_congr_of_mem fun x hx => ?_
      exact Operator.relation_congr hequal (Double.compare_nearestInt (hsmall x hx))

/-- A leaf on the attribute `count`, whatever it is compared with. -/
def countLeaf : Leaf := { op := .eq, name := "count", operand := none }

/-- An item with a counter. -/
def counted (n : Int) : Item := .ofList [("count", .int n)]

/-- The first integer that is no double stands behind the last one of 53 bits, and equals itself. -/
theorem Leaf.admits_integers_counted :
    (Criteria.leaf { countLeaf with op := .gt, operand := some (.integer 9007199254740991) }).admits
        (counted 9007199254740993) = .ok true ∧
      (Criteria.leaf { countLeaf with op := .member, operand := some (.integers [9007199254740993]) }).admits
        (counted 9007199254740993) = .ok true ∧
      (Criteria.leaf { countLeaf with op := .member, operand := some (.integers [7, -8]) }).admits
        (counted 9007199254740993) = .ok false := by
  have hlookup : (counted 9007199254740993).lookup? countLeaf.path = some (.int 9007199254740993) := by
    decide +kernel
  obtain ⟨halone, hlist⟩ := Leaf.admits_integers rfl (by decide) hlookup
  obtain ⟨-, hrelations⟩ := halone 9007199254740991 (by decide)
  obtain ⟨hgreater, hexact⟩ := hrelations .gt _ rfl
  obtain ⟨-, hfound, -⟩ := hlist 9007199254740993 [] (by decide)
  obtain ⟨-, hmissing, hsmall⟩ := hlist 7 [-8] (by decide)
  rw [hexact (by decide)] at hgreater
  rw [hsmall (by decide)] at hmissing
  exact ⟨hgreater, hfound, hmissing⟩

/-- Two to the power of 53 and its successor are equal as doubles: the one is found by the other, and is not
greater. -/
theorem exists_integers_confused :
    (counted 9007199254740993).lookup? countLeaf.path = some (.int 9007199254740993) ∧
      Term.ofValue (.int 9007199254740992) = .ok (.integer 9007199254740992) ∧
      (Criteria.leaf { countLeaf with op := .eq, operand := some (.integer 9007199254740992) }).admits
        (counted 9007199254740993) = .ok true ∧
      (Criteria.leaf { countLeaf with op := .member, operand := some (.integers [9007199254740992]) }).admits
        (counted 9007199254740993) = .ok true ∧
      (Criteria.leaf { countLeaf with op := .gt, operand := some (.integer 9007199254740992) }).admits
        (counted 9007199254740993) = .ok false := by
  refine ⟨by decide +kernel, ?_, ?_, ?_, ?_⟩
  · rfl
  · rfl
  · rfl
  · rfl

end DocumentStore
