import DocumentStore.Proofs.Double.Nearest

/-! How doubles are rounded and packed.

Rounding shifts a mantissa to the right bit by bit and keeps two bits of what it shifts out, the last one
and whether any bit before was set. They are enough to round half to even (`Shifted.roundedMantissa`), so a
mantissa of any length becomes the 53 bits of `halfEven` (`round_shifted`). The 53 bits
survive packing (`unpack_pack`). -/
namespace DocumentStore.Double
open Float.Model UnpackedFloat

/-! ### Rounding -/

/-- What is left of a mantissa `m` after `k` shifts, and what is known of the rest: whether it is at least
a half, and whether it is neither zero nor a half. -/
structure Shifted (m k : Nat) (em : ExtendedMantissa) : Prop where
  mantissa : em.mantissa = m / 2 ^ k
  roundBit : em.roundBit = true ↔ 2 ^ k ≤ 2 * (m % 2 ^ k)
  stickyBit : em.stickyBit = true ↔ m % 2 ^ k ≠ 0 ∧ 2 * (m % 2 ^ k) ≠ 2 ^ k

variable {m k : Nat} {e : Int}

theorem Shifted.shiftRightOne {em : ExtendedMantissa} (h : Shifted m k em) :
    Shifted m (k + 1) em.shiftRightOne := by
  have hrest : m % 2 ^ k < 2 ^ k := Nat.mod_lt _ (Nat.two_pow_pos k)
  -- The bit that is shifted out is the highest of the new rest.
  have hmod : m % 2 ^ (k + 1) = m % 2 ^ k + 2 ^ k * (m / 2 ^ k % 2) := by
    rw [Nat.pow_succ, Nat.mod_mul]
  have hbit : m / 2 ^ k % 2 = 0 ∨ m / 2 ^ k % 2 = 1 := Nat.mod_two_eq_zero_or_one _
  refine ⟨?_, ?_, ?_⟩
  · rw [ExtendedMantissa.shiftRightOne, h.mantissa, Nat.div_div_eq_div_mul, ← Nat.pow_succ]
  · rw [ExtendedMantissa.shiftRightOne, bne_iff_ne, h.mantissa, hmod, Nat.pow_succ]
    obtain hbit | hbit := hbit <;> rw [hbit] <;> omega
  · rw [ExtendedMantissa.shiftRightOne, Bool.or_eq_true, h.roundBit, h.stickyBit, hmod, Nat.pow_succ]
    obtain hbit | hbit := hbit <;> rw [hbit] <;> omega

theorem shifted_shiftRight (m k : Nat) : Shifted m k (ExtendedMantissa.mk m false false >>> k) := by
  induction k with
  | zero =>
    have hrest : m % 2 ^ 0 = 0 := Nat.mod_one m
    refine ⟨(Nat.div_one m).symm, ?_, ?_⟩ <;> rw [hrest]
    · exact iff_of_false Bool.false_ne_true (by decide)
    · exact iff_of_false Bool.false_ne_true (by decide)
  | succ k ih => exact ih.shiftRightOne

/-- The two bits decide as the rest does. -/
theorem Shifted.roundedMantissa {em : ExtendedMantissa} (h : Shifted m k em) :
    em.roundedMantissa = halfEven m k := by
  obtain ⟨hmantissa, hround, hsticky⟩ := h
  obtain ⟨mantissa, round, sticky⟩ := em
  dsimp only at hmantissa hround hsticky
  unfold halfEven
  rw [← hmantissa]
  have hpos : 0 < 2 ^ k := Nat.two_pow_pos k
  cases round with
  | false =>
    have hlow : 2 * (m % 2 ^ k) < 2 ^ k := Nat.not_le.1 (mt hround.2 Bool.false_ne_true)
    rw [if_pos hlow]
    cases sticky <;> rfl
  | true =>
    have hhigh : 2 ^ k ≤ 2 * (m % 2 ^ k) := hround.1 rfl
    rw [if_neg (Nat.not_lt.2 hhigh)]
    cases sticky with
    | false =>
      have hhalf : ¬2 ^ k < 2 * (m % 2 ^ k) := fun hlt =>
        Bool.false_ne_true (hsticky.2 ⟨by omega, by omega⟩)
      rw [if_neg hhalf]
      rfl
    | true =>
      have hmore := hsticky.1 rfl
      rw [if_pos (by omega)]
      rfl

/-- A mantissa of more than 53 bits loses those that are too many. -/
theorem shiftToTargetExponent_exact (hk : m.log2 = 52 + k) (he : -1074 ≤ e + k) :
    shiftToTargetExponent Format.binary64 m e .exact = (ExtendedMantissa.mk m false false >>> k, e + k) := by
  have htarget : (Format.binary64.targetExponent (totalExponent m e) - e).toNat = k := by
    have htotal : totalExponent m e = 53 + k + e := by
      rw [totalExponent, hk]
      omega
    have hmin : Format.binary64.minExponent = -1074 := by decide
    have hbits : Format.binary64.mantissaBits = 53 := rfl
    rw [Format.targetExponent, htotal, hmin, hbits]
    omega
  show (ExtendedMantissa.mk m false false >>>
    (Format.binary64.targetExponent (totalExponent m e) - e).toNat, e + ((_ : Nat) : Int)) = _
  rw [htarget]

theorem finite_congr {s s' : Sign} {m m' : Nat} {e e' : Int} {hm : 0 < m} {hm' : 0 < m'} (hs : s = s')
    (hmantissa : m = m') (he : e = e') : UnpackedFloat.finite s m e hm = .finite s' m' e' hm' := by
  subst hs hmantissa he
  rfl

theorem log2_of_mantissa (hfirst : 2 ^ 52 ≤ m) (hlast : m < 2 ^ 53) : m.log2 = 52 :=
  (Nat.log2_eq_iff (by omega)).2 ⟨hfirst, hlast⟩

/-- **A mantissa is rounded to 53 bits.** Where that carries it to `2 ^ 53`, it loses one bit more. -/
theorem round_shifted (s : Sign) (hk : m.log2 = 52 + k) (he : -1074 ≤ e + k) :
    ∃ m' e', ∃ hm' : 0 < m', roundWithAccuracy Format.binary64 s m e .exact = .finite s m' e' hm' ∧
      2 ^ 52 ≤ m' ∧ m' < 2 ^ 53 ∧
      (m' = halfEven m k ∧ e' = e + k ∨ halfEven m k = 2 * m' ∧ e' = e + k + 1) := by
  obtain ⟨hfirst, hlast⟩ := halfEven_bounds hk
  unfold roundWithAccuracy
  rw [shiftToTargetExponent_exact hk he]
  dsimp only
  rw [(shifted_shiftRight m k).roundedMantissa]
  obtain hlt | heq := Nat.lt_or_eq_of_le hlast
  · have hlog : (halfEven m k).log2 = 52 + 0 := log2_of_mantissa hfirst hlt
    rw [shiftToTargetExponent_exact hlog (by omega)]
    refine ⟨halfEven m k, e + k, by omega, ?_, hfirst, hlt, .inl ⟨rfl, rfl⟩⟩
    show (if h : halfEven m k = 0 then _ else UnpackedFloat.finite s (halfEven m k) (e + k + 0) _) = _
    rw [dif_neg (by omega)]
    exact finite_congr rfl rfl (Int.add_zero _)
  · have hlog : (halfEven m k).log2 = 52 + 1 := by
      rw [heq, Nat.log2_two_pow]
    rw [shiftToTargetExponent_exact hlog (by omega), heq]
    refine ⟨2 ^ 52, e + k + 1, by decide, ?_, Nat.le_refl _, by decide, .inr ⟨rfl, rfl⟩⟩
    rfl

theorem log2_mul_pow (hfirst : 2 ^ 52 ≤ m) (hlast : m < 2 ^ 53) (k : Nat) : (m * 2 ^ k).log2 = 52 + k := by
  have hpos := Nat.two_pow_pos k
  rw [Nat.log2_eq_iff (Nat.mul_ne_zero (by omega) (by omega)), Nat.pow_add, Nat.add_right_comm, Nat.pow_add]
  exact ⟨Nat.mul_le_mul_right _ hfirst, Nat.mul_lt_mul_of_pos_right hlast hpos⟩

/-- Zeros behind 53 bits are lost without a trace. -/
theorem round_mul_pow (s : Sign) (hfirst : 2 ^ 52 ≤ m) (hlast : m < 2 ^ 53) (he : -1074 ≤ e) (k : Nat) :
    ∃ hm, roundWithAccuracy Format.binary64 s (m * 2 ^ k) (e - k) .exact = .finite s m e hm := by
  obtain ⟨m', e', hm', hround, hfirst', -, ⟨hsame, he'⟩ | ⟨hhalf, -⟩⟩ :=
    round_shifted s (e := e - k) (log2_mul_pow hfirst hlast k) (by omega)
  · rw [halfEven_mul] at hsame
    rw [Int.sub_add_cancel] at he'
    subst hsame he'
    exact ⟨hm', hround⟩
  · rw [halfEven_mul] at hhalf
    omega

/-! ### Packing -/

section Components
variable {spec : Format} {sign : Sign} {exponent : BitVec spec.exponentBits}
  {mantissa : BitVec spec.mantissaBitsWithoutImplicit}

theorem ofBitVec_unpackSign :
    Sign.ofBitVec (unpackSign (packComponents spec sign exponent mantissa)) = sign := by
  have h : unpackSign (packComponents spec sign exponent mantissa) = sign.toBitVec := by
    ext i hi
    obtain rfl : i = 0 := by omega
    unfold unpackSign packComponents
    simp [BitVec.getLsbD_append, BitVec.getElem_append]
  rw [h]
  cases sign <;> rfl

/-- Exponents but the first and the last stand for a mantissa with a leading one. -/
theorem unpack_packComponents (hlast : exponent ≠ -1#_) (hfirst : exponent ≠ 0#_)
    (hm : 0 < (1#1 ++ mantissa).toNat) :
    UnpackedFloat.unpack spec (packComponents spec sign exponent mantissa) =
      .finite sign (1#1 ++ mantissa).toNat
        (exponent.toNat - (spec.exponentBias + spec.mantissaBitsWithoutImplicit)) hm := by
  have hexponent : unpackExponent (packComponents spec sign exponent mantissa) = exponent :=
    unpackExponent_packComponents
  unfold UnpackedFloat.unpack
  rw [if_neg (hexponent.trans_ne hlast), if_neg (hexponent.trans_ne hfirst)]
  exact finite_congr ofBitVec_unpackSign (by rw [unpackMantissa_packComponents]) (by rw [hexponent])

end Components

theorem pack_finite (s : Sign) {biased : Nat} (hm : 0 < m) (hlog : m.log2 = 52) (he : e = biased - 1075)
    (hbiased : biased < 2047) :
    UnpackedFloat.pack Format.binary64 (.finite s m e hm) =
      packComponents Format.binary64 s (BitVec.ofNat _ biased) (BitVec.ofNat _ m) := by
  have hbits : Format.binary64.exponentBits = 11 := rfl
  have hexponent : (e + Format.binary64.exponentBias + Format.binary64.mantissaBitsWithoutImplicit).toNat =
      biased := by
    have hbias : Format.binary64.exponentBias = 1023 := by decide
    have hwidth : Format.binary64.mantissaBitsWithoutImplicit = 52 := rfl
    rw [hbias, hwidth]
    omega
  have hfits : ¬2 ^ Format.binary64.exponentBits ≤ biased + 1 := by
    rw [hbits]
    omega
  have hnormal : m.log2 + 1 = Format.binary64.mantissaBits := by
    rw [hlog]
    rfl
  unfold UnpackedFloat.pack
  dsimp only
  rw [hexponent, if_neg hfits, if_pos hnormal]

/-- The leading one that packing leaves out. -/
theorem toNat_append_one (hfirst : 2 ^ 52 ≤ m) (hlast : m < 2 ^ 53) :
    (1#1 ++ BitVec.ofNat 52 m).toNat = m := by
  rw [BitVec.toNat_append, ← Nat.shiftLeft_add_eq_or_of_lt (BitVec.isLt _), Nat.shiftLeft_eq,
    BitVec.toNat_ofNat, BitVec.toNat_ofNat]
  omega

/-- **Doubles of 53 bits survive packing.** -/
theorem unpack_pack (s : Sign) {biased : Nat} (hm : 0 < m) (hfirst : 2 ^ 52 ≤ m) (hlast : m < 2 ^ 53)
    (he : e = biased - 1075) (hpos : 0 < biased) (hbiased : biased < 2047) :
    (Float.Model.pack (.finite s m e hm)).unpack = .finite s m e hm := by
  have hvalue : (BitVec.ofNat 11 biased).toNat = biased := by
    rw [BitVec.toNat_ofNat]
    exact Nat.mod_eq_of_lt (by omega)
  have hnotLast : BitVec.ofNat 11 biased ≠ -1#_ := fun h => by
    have h := congrArg BitVec.toNat h
    rw [hvalue] at h
    exact absurd h (show biased ≠ 2047 by omega)
  have hnotFirst : BitVec.ofNat 11 biased ≠ 0#_ := fun h => by
    have h := congrArg BitVec.toNat h
    rw [hvalue] at h
    exact absurd h (show biased ≠ 0 by omega)
  have hbias : Format.binary64.exponentBias = 1023 := by decide
  show UnpackedFloat.unpack Format.binary64 (UnpackedFloat.pack Format.binary64 _) = _
  rw [pack_finite s hm (log2_of_mantissa hfirst hlast) he hbiased]
  have hmantissa : (1#1 ++ BitVec.ofNat 52 m).toNat = m := toNat_append_one hfirst hlast
  have hexponent : ((BitVec.ofNat 11 biased).toNat : Int) - (Format.binary64.exponentBias + 52) = e := by
    rw [hvalue, hbias]
    omega
  exact (unpack_packComponents hnotLast hnotFirst (hm.trans_eq hmantissa.symm)).trans
    (finite_congr rfl hmantissa hexponent)

end DocumentStore.Double
