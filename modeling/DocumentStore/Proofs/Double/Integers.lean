import DocumentStore.Proofs.Double.Rounding
import DocumentStore.Proofs.Filter.Doubles

/-! The doubles of integers.

The double of an integer of up to 64 bits is the nearest one (`whole_ofInt`), so two of them stand to
each other as the nearest doubles do as integers (`floatOrder?_ofInt`). -/
namespace DocumentStore.Double
open Float.Model UnpackedFloat

variable {k k' m m' : Nat} {e e' a b : Int} {f g : UnpackedFloat}

/-! ### Doubles that are integers -/

/-- A mantissa of 53 bits and the exponent with which it is the positive number `k`. -/
structure Denotes (k m : Nat) (e : Int) : Prop where
  first : 2 ^ 52 ≤ m
  last : m < 2 ^ 53
  value : m * 2 ^ k.log2 = k * 2 ^ 52
  exponent : e = k.log2 - 52

namespace Denotes

theorem pos (h : Denotes k m e) : 0 < k := by
  refine Nat.pos_of_ne_zero ?_
  rintro rfl
  have hfirst := h.first
  have hvalue := h.value
  rw [Nat.log2_zero] at hvalue
  omega

theorem unpack_pack (h : Denotes k m e) (hk : k.log2 < 1024) (s : Sign) (hm : 0 < m) :
    (Float.Model.pack (.finite s m e hm)).unpack = .finite s m e hm := by
  have he : e = (k.log2 + 1023 : Nat) - 1075 := by
    rw [h.exponent]
    omega
  exact Double.unpack_pack s hm h.first h.last he (by omega) (by omega)

/-- A number has one mantissa. -/
theorem unique (h : Denotes k m e) (h' : Denotes k m' e') : e = e' ∧ m = m' :=
  ⟨h.exponent.trans h'.exponent.symm,
    Nat.eq_of_mul_eq_mul_right (Nat.two_pow_pos k.log2) (h.value.trans h'.value.symm)⟩

/-- A smaller number has the smaller exponent, or the same one and the smaller mantissa. -/
theorem compare_lt (h : Denotes k m e) (h' : Denotes k' m' e') (hlt : k < k') :
    (compare e e').then (compare (m : Int) m') = .lt := by
  have hlog : k.log2 ≤ k'.log2 := (Nat.le_log2 h'.pos.ne').2 ((Nat.log2_self_le h.pos.ne').trans hlt.le)
  rw [h.exponent, h'.exponent]
  obtain hlt' | heq := Nat.lt_or_eq_of_le hlog
  · rw [Int.compare_eq_lt.2 (by omega)]
    rfl
  · have hvalue := h.value
    have hvalue' := h'.value
    rw [heq] at hvalue
    have hscaled : m * 2 ^ k'.log2 < m' * 2 ^ k'.log2 := by omega
    have hmantissa : m < m' := Nat.lt_of_mul_lt_mul_right hscaled
    rw [heq, Int.compare_eq_eq.2 rfl, Int.compare_eq_lt.2 (Int.ofNat_lt.2 hmantissa)]
    rfl

end Denotes

/-- A double that is the integer `a`. -/
inductive Whole : Int → UnpackedFloat → Prop where
  | zero (s : Sign) : Whole 0 (.zero s)
  | positive {k m : Nat} {e : Int} (h : Denotes k m e) (hm : 0 < m) : Whole k (.finite .positive m e hm)
  | negative {k m : Nat} {e : Int} (h : Denotes k m e) (hm : 0 < m) : Whole (-k) (.finite .negative m e hm)

namespace Whole

theorem neg (h : Whole a f) : Whole (-a) f.neg := by
  cases h with
  | zero s => exact zero _
  | positive h hm => exact negative h hm
  | @negative k m e h hm =>
    rw [Int.neg_neg]
    exact positive h hm

/-- Packing keeps what does not become infinite. -/
theorem unpack_pack (h : Whole a f) (ha : a.natAbs ≤ 2 ^ 64) : (Float.Model.pack f).unpack = f := by
  cases h with
  | zero s => cases s <;> rfl
  | @positive k m e h hm | @negative k m e h hm =>
    have hlog : k.log2 < 65 := (Nat.log2_lt h.pos.ne').2 (by omega)
    exact h.unpack_pack (by omega) _ hm

/-- A smaller integer has a smaller rank. -/
theorem rank_lt (h : Whole a f) (h' : Whole b g) (hlt : a < b) : compare (rank f) (rank g) = .lt := by
  cases h with
  | zero s =>
    cases h' with
    | zero => exact absurd hlt (Int.lt_irrefl 0)
    | positive => rfl
    | negative => omega
  | positive h =>
    cases h' with
    | zero | negative => omega
    | positive h' => exact h.compare_lt h' (Int.ofNat_lt.1 hlt)
  | negative h =>
    cases h' with
    | zero | positive => rfl
    | @negative k' m' e' h' =>
      show (compare (-_) (-e')).then (compare (-_) (-(m' : Int))) = .lt
      rw [compare_neg, compare_neg, ← Std.OrientedOrd.eq_swap, ← Std.OrientedOrd.eq_swap]
      exact h'.compare_lt h (by omega)

/-- An integer has one rank. -/
theorem rank_eq (h : Whole a f) (h' : Whole a g) : rank f = rank g := by
  generalize hb : a = b at h'
  cases h with
  | zero s =>
    cases h' with
    | zero => rfl
    | positive h' | negative h' =>
      have hpos := h'.pos
      omega
  | positive h =>
    cases h' with
    | zero =>
      have hpos := h.pos
      omega
    | positive h' =>
      obtain rfl := Int.ofNat_inj.1 hb
      obtain ⟨rfl, rfl⟩ := h.unique h'
      rfl
    | negative h' =>
      have hpos := h.pos
      omega
  | negative h =>
    cases h' with
    | zero | positive =>
      have hpos := h.pos
      omega
    | negative h' =>
      obtain rfl := Int.ofNat_inj.1 (Int.neg_inj.1 hb)
      obtain ⟨rfl, rfl⟩ := h.unique h'
      rfl

/-- Doubles that are integers are ordered as these. -/
theorem compare_rank (h : Whole a f) (h' : Whole b g) : compare (rank f) (rank g) = compare a b := by
  obtain hlt | rfl | hgt := Int.lt_trichotomy a b
  · rw [Int.compare_eq_lt.2 hlt, h.rank_lt h' hlt]
  · rw [Int.compare_eq_eq.2 rfl, h.rank_eq h', Std.ReflOrd.compare_self]
  · rw [Int.compare_eq_gt.2 hgt, Std.OrientedOrd.eq_swap, h'.rank_lt h hgt]
    rfl

end Whole

/-! ### The double of a natural number -/

/-- The mantissa of a number of up to 53 bits. -/
theorem denotes_shifted {n : Nat} (hpos : 0 < n) (hsmall : n < 2 ^ 53) :
    Denotes n (n * 2 ^ (52 - n.log2)) (n.log2 - 52) := by
  have hlog := (Nat.log2_lt (Nat.ne_of_gt hpos)).2 hsmall
  have hsplit (i : Nat) : 2 ^ (52 + i) = 2 ^ (n.log2 + i) * 2 ^ (52 - n.log2) := by
    rw [← Nat.pow_add]
    congr 1
    omega
  refine ⟨?_, ?_, ?_, rfl⟩
  · rw [hsplit 0]
    exact Nat.mul_le_mul_right _ (Nat.log2_self_le hpos.ne')
  · rw [hsplit 1]
    exact Nat.mul_lt_mul_of_pos_right Nat.lt_log2_self (Nat.two_pow_pos _)
  · rw [Nat.mul_assoc, ← Nat.pow_add, Nat.sub_add_cancel (by omega)]

/-- A number of more bits is rounded to the mantissa of the nearest double. -/
theorem denotes_nearest {n : Nat} (hfirst : 2 ^ 52 ≤ m) (hlast : m < 2 ^ 53)
    (hround : m = halfEven n (excess n) ∧ e = excess n ∨
      halfEven n (excess n) = 2 * m ∧ e = excess n + 1) :
    Denotes (nearest n) m e := by
  obtain ⟨hsame, he⟩ | ⟨hhalf, he⟩ := hround
  · have hlog : (nearest n).log2 = 52 + excess n := by
      rw [nearest, ← hsame]
      exact log2_mul_pow hfirst hlast _
    refine ⟨hfirst, hlast, ?_, by omega⟩
    rw [hlog, nearest, ← hsame, Nat.pow_add]
    ac_rfl
  · have hlog : (nearest n).log2 = 52 + (excess n + 1) := by
      rw [nearest, hhalf, ← log2_mul_pow hfirst hlast, Nat.pow_succ]
      congr 1
      ac_rfl
    refine ⟨hfirst, hlast, ?_, by omega⟩
    rw [hlog, nearest, hhalf, Nat.pow_add, Nat.pow_succ 2 (excess n)]
    ac_rfl

/-- A word of up to 53 bits is converted as it is. -/
theorem unpack_toFloat {n : Nat} (hpos : 0 < n) (hsmall : n < 2 ^ 53) :
    ∃ m e hm, Denotes n m e ∧ n.toUInt64.toFloat.toModel.unpack = .finite .positive m e hm := by
  have hdenotes := denotes_shifted hpos hsmall
  have hlog := (Nat.log2_lt (Nat.ne_of_gt hpos)).2 hsmall
  have hword : n.toUInt64.toNat = n := Nat.mod_eq_of_lt (by omega)
  have hcompare : compare (n : Int) 0 = .gt := Int.compare_eq_gt.2 (by omega)
  have htarget : Format.binary64.targetExponent (totalExponent n 0) = n.log2 - 52 := by
    have hmin : Format.binary64.minExponent = -1074 := by decide
    have hbits : Format.binary64.mantissaBits = 53 := rfl
    rw [Format.targetExponent, totalExponent, hmin, hbits]
    omega
  obtain ⟨hm, hround⟩ :=
    round_mul_pow .positive (e := n.log2 - 52) hdenotes.first hdenotes.last (by omega) 0
  have hshift : ((0 : Int) - (n.log2 - 52)).toNat = 52 - n.log2 := by omega
  have hexponent : (0 : Int) - (52 - n.log2 : Nat) = n.log2 - 52 - (0 : Nat) := by omega
  rw [Nat.pow_zero, Nat.mul_one, ← hexponent] at hround
  refine ⟨_, _, hm, hdenotes, ?_⟩
  show (Float.Model.pack
    (UnpackedFloat.normalize Format.binary64 (n.toUInt64.toNat : Int) 0 .positive)).unpack = _
  rw [hword, UnpackedFloat.normalize, hcompare]
  dsimp only
  rw [UnpackedFloat.round, Int.toNat_natCast, htarget]
  show (Float.Model.pack (roundWithAccuracy Format.binary64 .positive
    (n <<< ((0 : Int) - (n.log2 - 52)).toNat) (0 - ((0 : Int) - (n.log2 - 52)).toNat) .exact)).unpack = _
  rw [hshift, Nat.shiftLeft_eq, hround]
  exact hdenotes.unpack_pack (by omega) .positive hm

/-- Up to 53 bits the double is that of the word, multiplied by one. -/
theorem toModel_ofNat_of_lt {n : Nat} (hsmall : n < 2 ^ 53) :
    (Float.ofNat n).toModel = Float.Model.pack (UnpackedFloat.mul Format.binary64
      n.toUInt64.toFloat.toModel.unpack (.finite .positive (2 ^ 52) (-52) (by decide))) := by
  have hone : Float.exactlyRepresentablePowersOfTen[0].toModel.unpack =
      .finite .positive (2 ^ 52) (-52) (by decide) := by
    rfl
  show (Float.ofScientific n false 0).toModel = _
  unfold Float.ofScientific
  rw [dif_pos ⟨hsmall, by decide⟩, ← hone]
  rfl

/-- Beyond, the number is shifted to the left and rounded. -/
theorem toModel_ofNat_of_le {n : Nat} (hlarge : 2 ^ 53 ≤ n) :
    (Float.ofNat n).toModel =
      Float.Model.pack (roundWithAccuracy Format.binary64 .positive (n * 2 ^ 53) (-53) .exact) := by
  have hend : (0 : Int) < 2 ^ Format.binary64.exponentBits := by decide
  show (Float.ofScientific n false 0).toModel = _
  unfold Float.ofScientific
  rw [dif_neg (by omega)]
  show Float.Model.pack (UnpackedFloat.ofScientific Format.binary64 n 0) = _
  unfold UnpackedFloat.ofScientific
  rw [dif_neg (show n ≠ 0 by omega), if_neg (by decide), if_neg (by omega), if_pos (Int.le_refl 0)]
  show Float.Model.pack (roundWithAccuracy Format.binary64 .positive ((n <<< 53) * 1) (-53 + 0) .exact) = _
  rw [Nat.mul_one, Nat.shiftLeft_eq]
  rfl

theorem whole_ofNat_of_lt {n : Nat} (hpos : 0 < n) (hsmall : n < 2 ^ 53) :
    Whole n (Float.ofNat n).toModel.unpack := by
  obtain ⟨m, e, hm, hdenotes, hunpack⟩ := unpack_toFloat hpos hsmall
  have hlog := (Nat.log2_lt hpos.ne').2 hsmall
  have hexponent := hdenotes.exponent
  obtain ⟨hm, hround⟩ := round_mul_pow .positive (e := e) hdenotes.first hdenotes.last (by omega) 52
  have hproduct : UnpackedFloat.mul Format.binary64 (.finite .positive m e hm)
      (.finite .positive (2 ^ 52) (-52) (by decide)) = .finite .positive m e hm := hround
  rw [toModel_ofNat_of_lt hsmall, hunpack, hproduct, hdenotes.unpack_pack (by omega) .positive hm]
  exact .positive hdenotes hm

theorem whole_ofNat_of_le {n : Nat} (hlarge : 2 ^ 53 ≤ n) (hword : n < Word.unsignedEnd) :
    Whole (nearest n) (Float.ofNat n).toModel.unpack := by
  have hzero : n ≠ 0 := by omega
  have hlog : n.log2 = 52 + excess n := log2_eq (by omega)
  have hmost : n.log2 < 64 := (Nat.log2_lt hzero).2 hword
  have hshifted : (n * 2 ^ 53).log2 = 52 + (excess n + 53) := by
    rw [Nat.log2_eq_iff (by omega), ← Nat.add_assoc, ← hlog, Nat.add_right_comm, Nat.pow_add, Nat.pow_add]
    exact ⟨Nat.mul_le_mul_right _ (Nat.log2_self_le hzero),
      Nat.mul_lt_mul_of_pos_right Nat.lt_log2_self (by decide)⟩
  obtain ⟨m, e, hm, hround, hfirst, hlast, hvalue⟩ := round_shifted .positive (e := -53) hshifted (by omega)
  rw [halfEven_mul_pow] at hvalue
  have hdenotes : Denotes (nearest n) m e := denotes_nearest hfirst hlast (by omega)
  have hexponent := hdenotes.exponent
  rw [toModel_ofNat_of_le hlarge, hround, hdenotes.unpack_pack (by omega) .positive hm]
  exact .positive hdenotes hm

theorem whole_ofNat {n : Nat} (hword : n < Word.unsignedEnd) :
    Whole (nearest n) (Float.ofNat n).toModel.unpack := by
  by_cases hsmall : n < 2 ^ 53
  · rw [nearest_of_lt hsmall]
    obtain rfl | hpos := Nat.eq_zero_or_pos n
    · have hunpack : (Float.ofNat 0).toModel.unpack = .zero .positive := by rfl
      rw [hunpack]
      exact .zero .positive
    · exact whole_ofNat_of_lt hpos hsmall
  · exact whole_ofNat_of_le (by omega) hword

/-! ### The double of an integer -/

theorem natAbs_nearestInt_le (ha : a.natAbs < Word.unsignedEnd) : (nearestInt a).natAbs ≤ 2 ^ 64 := by
  have hnearest (n : Nat) (hword : n < Word.unsignedEnd) : nearest n ≤ 2 ^ 64 := by
    by_cases hzero : n = 0
    · rw [hzero, nearest_of_lt (by decide)]
      decide
    · have hlog : n.log2 < 64 := (Nat.log2_lt hzero).2 hword
      exact (nearest_bounds hzero).2.trans (Nat.pow_le_pow_right (by decide) hlog)
  cases a with
  | ofNat n => exact hnearest n ha
  | negSucc n =>
    rw [nearestInt, Int.natAbs_neg]
    exact hnearest (n + 1) ha

/-- **The double of an integer is the nearest one.** -/
theorem whole_ofInt (ha : a.natAbs < Word.unsignedEnd) :
    Whole (nearestInt a) (Float.ofInt a).toModel.unpack := by
  cases a with
  | ofNat n => exact whole_ofNat ha
  | negSucc n =>
    have hneg : Whole (nearestInt (.negSucc n)) (Float.ofNat (n + 1)).toModel.unpack.neg :=
      (whole_ofNat ha).neg
    have hpack := hneg.unpack_pack (natAbs_nearestInt_le ha)
    show Whole _ (Float.Model.pack (Float.ofNat (n + 1)).toModel.unpack.neg).unpack
    rwa [hpack]

/-- **Doubles of integers stand to each other as the nearest doubles do.** -/
theorem floatOrder?_ofInt (ha : a.natAbs < Word.unsignedEnd) (hb : b.natAbs < Word.unsignedEnd) :
    Comparable.floatOrder? (Float.ofInt a) (Float.ofInt b) = some (compare (nearestInt a) (nearestInt b)) := by
  rw [Comparable.floatOrder?_eq (isNaN_ofInt a) (isNaN_ofInt b), (whole_ofInt ha).compare_rank (whole_ofInt hb)]

theorem beq_ofInt (ha : a.natAbs < Word.unsignedEnd) (hb : b.natAbs < Word.unsignedEnd) :
    (Float.ofInt a == Float.ofInt b) = (nearestInt a == nearestInt b) := by
  rw [Bool.eq_iff_iff, beq_iff, compare_eq (isNaN_ofInt a) (isNaN_ofInt b),
    (whole_ofInt ha).compare_rank (whole_ofInt hb), beq_iff_eq, Option.some.injEq, Int.compare_eq_eq]

end DocumentStore.Double
