import DocumentStore.Filter.Comparable

/-! Doubles in order.

Doubles that are numbers are ordered by a rank of theirs, made of sign, exponent and mantissa
(`Comparable.floatOrder?_eq`). The double of a JSON number is one of them (`Json.Number.isNaN_toFloat`). -/
namespace DocumentStore

namespace Double
open Float.Model

/-- What doubles other than NaN are ordered by. -/
structure Rank where
  /-- The sign, doubled for what is infinite. -/
  sign : Int
  exponent : Int
  mantissa : Int

instance : Ord Rank :=
  ⟨compareLex (compareOn Rank.sign) (compareLex (compareOn Rank.exponent) (compareOn Rank.mantissa))⟩

instance : Std.TransOrd Rank :=
  inferInstanceAs (Std.TransCmp (compareLex (compareOn Rank.sign)
    (compareLex (compareOn Rank.exponent) (compareOn Rank.mantissa))))

/-- Below zero a greater exponent and a greater mantissa come first. -/
def rank : UnpackedFloat → Rank
  | .notANumber | .zero _ => ⟨0, 0, 0⟩
  | .infinity .negative => ⟨-2, 0, 0⟩
  | .infinity .positive => ⟨2, 0, 0⟩
  | .finite .negative mantissa exponent _ => ⟨-1, -exponent, -mantissa⟩
  | .finite .positive mantissa exponent _ => ⟨1, exponent, mantissa⟩

theorem compare_neg (a b : Int) : compare (-a) (-b) = (compare a b).swap := by
  rw [← Std.OrientedOrd.eq_swap, Int.compare_eq_ite_lt, Int.compare_eq_ite_lt]
  simp only [Int.neg_lt_neg_iff]

theorem compare_natCast (a b : Nat) : compare (a : Int) b = compare a b := by
  rw [Int.compare_eq_ite_lt, Nat.compare_eq_ite_lt]
  simp only [Int.ofNat_lt]

theorem compare_eq {a b : UnpackedFloat} (ha : a.isNaN = false) (hb : b.isNaN = false) :
    a.compare b = some (compare (rank a) (rank b)) := by
  cases a with
  | notANumber => cases ha
  | infinity s =>
    cases b with
    | notANumber => cases hb
    | infinity s' | zero s' | finite s' => cases s <;> cases s' <;> rfl
  | zero s =>
    cases b with
    | notANumber => cases hb
    | infinity s' | zero s' | finite s' => cases s <;> cases s' <;> rfl
  | finite s m e =>
    cases b with
    | notANumber => cases hb
    | infinity s' | zero s' => cases s <;> cases s' <;> rfl
    | finite s' m' e' =>
      cases s <;> cases s'
      case negative.positive | positive.negative => rfl
      case negative.negative =>
        show some _ = some ((compare (-e) (-e')).then (compare (-(m : Int)) (-(m' : Int))))
        rw [compare_neg, compare_neg, compare_natCast, Ordering.swap_then]
      case positive.positive =>
        show some _ = some ((compare e e').then (compare (m : Int) (m' : Int)))
        rw [compare_natCast]

theorem lt_iff {x y : Float} :
    x < y ↔ x.toModel.unpack.compare y.toModel.unpack = some .lt := by
  show decide (x.toModel < y.toModel) = true ↔ _
  rw [decide_eq_true_iff]
  exact beq_iff_eq

theorem beq_iff {x y : Float} :
    (x == y) = true ↔ x.toModel.unpack.compare y.toModel.unpack = some .eq := by
  show (x.toModel.unpack.compare y.toModel.unpack == some .eq) = true ↔ _
  rw [beq_iff_eq]

/-! ### Doubles that are numbers -/

theorem isNaN_dite {p : Prop} [Decidable p] {f : p → UnpackedFloat} {g : ¬p → UnpackedFloat}
    (hf : ∀ h, (f h).isNaN = false) (hg : ∀ h, (g h).isNaN = false) :
    (if h : p then f h else g h).isNaN = false := by
  by_cases h : p
  · rw [dif_pos h]
    exact hf h
  · rw [dif_neg h]
    exact hg h

theorem isNaN_ite {p : Prop} [Decidable p] {a b : UnpackedFloat} (ha : p → a.isNaN = false)
    (hb : ¬p → b.isNaN = false) : (if p then a else b).isNaN = false := by
  rw [← dite_eq_ite]
  exact isNaN_dite ha hb

/-- With the last exponent only infinities are packed, besides NaN. -/
theorem unpackMantissa_pack {f : UnpackedFloat} (h : f.isNaN = false)
    (hexponent : UnpackedFloat.unpackExponent (UnpackedFloat.pack Format.binary64 f) = -1#_) :
    UnpackedFloat.unpackMantissa (UnpackedFloat.pack Format.binary64 f) = 0#_ := by
  revert hexponent
  fun_cases UnpackedFloat.pack with
  | case1 => cases h
  | case2 s => exact fun _ => UnpackedFloat.unpackMantissa_packComponents
  | case3 s => exact fun _ => UnpackedFloat.unpackMantissa_packComponents
  | case4 s m e hm => exact fun _ => UnpackedFloat.unpackMantissa_packComponents
  | case5 s m e hm bits biased hfits =>
    intro hexponent
    rw [UnpackedFloat.unpackExponent_packComponents] at hexponent
    have hlast : (-1#11).toNat = 2047 := by decide
    have hbiased := congrArg BitVec.toNat hexponent
    rw [hlast, BitVec.toNat_ofNat] at hbiased
    change biased % 2048 = 2047 at hbiased
    change ¬2048 ≤ biased + 1 at hfits
    omega
  | case6 s m e hm =>
    intro hexponent
    rw [UnpackedFloat.unpackExponent_packComponents] at hexponent
    exact absurd hexponent (by decide)

/-- Packing keeps what is a number a number, though it may become infinite. -/
theorem isNaN_unpack_pack {f : UnpackedFloat} (h : f.isNaN = false) : (pack f).unpack.isNaN = false := by
  show (UnpackedFloat.unpack Format.binary64 (UnpackedFloat.pack Format.binary64 f)).isNaN = false
  unfold UnpackedFloat.unpack
  refine isNaN_ite (fun hexponent => ?_) fun _ => isNaN_ite (fun _ => ?_) fun _ => rfl
  · rw [if_pos (unpackMantissa_pack h hexponent)]
    rfl
  · exact isNaN_dite (fun _ => rfl) fun _ => rfl

theorem isNaN_roundWithAccuracy (spec : Format) (sign : UnpackedFloat.Sign) (mantissa : Nat)
    (exponent : Int) (accuracy : UnpackedFloat.Accuracy) :
    (UnpackedFloat.roundWithAccuracy spec sign mantissa exponent accuracy).isNaN = false := by
  unfold UnpackedFloat.roundWithAccuracy
  exact isNaN_dite (fun _ => rfl) fun _ => rfl

theorem isNaN_normalize (spec : Format) (mantissa exponent : Int) (sign : UnpackedFloat.Sign) :
    (UnpackedFloat.normalize spec mantissa exponent sign).isNaN = false := by
  unfold UnpackedFloat.normalize
  split
  · exact isNaN_roundWithAccuracy ..
  · rfl
  · exact isNaN_roundWithAccuracy ..

/-- A product with what is neither zero nor infinite is a number. -/
theorem isNaN_mul {a b : UnpackedFloat} (ha : a.isNaN = false) (hb : (rank b).sign = 1) :
    (UnpackedFloat.mul Format.binary64 a b).isNaN = false := by
  cases b with
  | notANumber | zero => cases hb
  | infinity s => cases s <;> cases hb
  | finite =>
    cases a with
    | notANumber => cases ha
    | infinity | zero => rfl
    | finite => exact isNaN_roundWithAccuracy ..

theorem isNaN_ofScientific (n : Nat) : (UnpackedFloat.ofScientific Format.binary64 n 0).isNaN = false := by
  unfold UnpackedFloat.ofScientific
  refine isNaN_dite (fun _ => rfl) fun _ => ?_
  have hend : (0 : Int) < 2 ^ Format.binary64.exponentBits := by decide
  rw [if_neg (by decide), if_neg (by omega), if_pos (Int.le_refl 0)]
  exact isNaN_mul rfl rfl

theorem isNaN_ofNat (n : Nat) : (Float.ofNat n).isNaN = false := by
  show (Float.ofScientific n false 0).isNaN = false
  unfold Float.ofScientific
  split
  · -- Below 2 ^ 53 the double is a product with a power of ten, here with the zeroth.
    have hone : (rank Float.exactlyRepresentablePowersOfTen[0].toModel.unpack).sign = 1 := by
      decide +kernel
    exact isNaN_unpack_pack (isNaN_mul (isNaN_unpack_pack (isNaN_normalize ..)) hone)
  · exact isNaN_unpack_pack (isNaN_ofScientific n)

theorem isNaN_neg (f : UnpackedFloat) : f.neg.isNaN = f.isNaN := by
  cases f <;> rfl

theorem isNaN_ofInt (n : Int) : (Float.ofInt n).isNaN = false := by
  cases n with
  | ofNat n => exact isNaN_ofNat n
  | negSucc n =>
    exact isNaN_unpack_pack ((isNaN_neg _).trans (isNaN_ofNat (n + 1)))

theorem isNaN_of_isFinite {x : Float} (h : x.isFinite = true) : x.isNaN = false := by
  change x.toModel.unpack.isFinite = true at h
  show x.toModel.unpack.isNaN = false
  cases hunpack : x.toModel.unpack with
  | notANumber =>
    rw [hunpack] at h
    cases h
  | infinity | zero | finite => rfl

end Double

/-- The double of a JSON number is a number. -/
theorem Json.Number.isNaN_toFloat (n : Number) : n.toFloat.isNaN = false := by
  cases n with
  | int n => exact Double.isNaN_ofInt n
  | double x hfinite => exact Double.isNaN_of_isFinite hfinite

/-- **Doubles that are numbers are ordered by their rank.** -/
theorem Comparable.floatOrder?_eq {x y : Float} (hx : x.isNaN = false) (hy : y.isNaN = false) :
    floatOrder? x y =
      some (compare (Double.rank x.toModel.unpack) (Double.rank y.toModel.unpack)) := by
  have hxy := Double.compare_eq hx hy
  have hyx := Double.compare_eq hy hx
  rw [Std.OrientedOrd.eq_swap] at hyx
  unfold floatOrder?
  simp only [Double.lt_iff, Double.beq_iff, hxy, hyx]
  cases compare (Double.rank x.toModel.unpack) (Double.rank y.toModel.unpack) <;> rfl

end DocumentStore
