import Mathlib.Algebra.Order.Group.Unbundled.Int
import Mathlib.Algebra.Order.Ring.Nat
import Mathlib.Data.Nat.Log

/-! The doubles next to integers.

A double holds 53 significant bits. An integer of more bits is rounded to the nearest integer that can be
held, of two that are equally near to the one whose last bit is even (`nearest_spec`, `halfEven_even`).
Rounding keeps the order (`nearestInt_mono`), though not strictly: it tells an integer of at most 53 bits
from every other integer (`compare_nearestInt`), and beyond that it does not tell all of them apart. -/
namespace DocumentStore.Double

/-! ### Rounding to a multiple of a power of two -/

/-- A number in units of `2 ^ k`, rounded to nearest and of two to the even one. -/
def halfEven (n k : Nat) : Nat :=
  let quotient := n / 2 ^ k
  let rest := n % 2 ^ k
  if 2 * rest < 2 ^ k then quotient
  else if 2 ^ k < 2 * rest then quotient + 1
  else quotient + quotient % 2

theorem halfEven_cases (n k : Nat) :
    halfEven n k = n / 2 ^ k ∧ 2 * (n % 2 ^ k) ≤ 2 ^ k ∨
      halfEven n k = n / 2 ^ k + 1 ∧ 2 ^ k ≤ 2 * (n % 2 ^ k) := by
  unfold halfEven
  dsimp only
  split_ifs <;> omega

/-- Of two multiples that are as near as each other, the even one. -/
theorem halfEven_even {n k : Nat} (h : 2 * (n % 2 ^ k) = 2 ^ k) : halfEven n k % 2 = 0 := by
  unfold halfEven
  dsimp only
  rw [h, if_neg (Nat.lt_irrefl _), if_neg (Nat.lt_irrefl _)]
  omega

/-- No multiple is nearer. -/
theorem halfEven_nearest (n k q : Nat) :
    ((n : Int) - (halfEven n k * 2 ^ k : Nat)).natAbs ≤ ((n : Int) - (q * 2 ^ k : Nat)).natAbs := by
  have hn := Nat.div_add_mod n (2 ^ k)
  have hrest := Nat.mod_lt n (Nat.two_pow_pos k)
  rw [Nat.mul_comm] at hn
  have hside : q * 2 ^ k ≤ n / 2 ^ k * 2 ^ k ∨ (n / 2 ^ k + 1) * 2 ^ k ≤ q * 2 ^ k := by
    obtain hlt | hle := Nat.lt_or_ge (n / 2 ^ k) q
    · exact .inr (Nat.mul_le_mul_right _ hlt)
    · exact .inl (Nat.mul_le_mul_right _ hle)
  rw [Nat.succ_mul] at hside
  obtain ⟨hround, hhalf⟩ | ⟨hround, hhalf⟩ := halfEven_cases n k
  · rw [hround]
    omega
  · rw [hround, Nat.succ_mul]
    omega

theorem halfEven_mono {n n' : Nat} (h : n ≤ n') (k : Nat) : halfEven n k ≤ halfEven n' k := by
  have hquotient : n / 2 ^ k ≤ n' / 2 ^ k := Nat.div_le_div_right h
  obtain hlt | heq := Nat.lt_or_eq_of_le hquotient
  · have hn := halfEven_cases n k
    have hn' := halfEven_cases n' k
    omega
  · have hrest : n % 2 ^ k ≤ n' % 2 ^ k := by
      have hn := Nat.div_add_mod n (2 ^ k)
      have hn' := Nat.div_add_mod n' (2 ^ k)
      rw [← heq] at hn'
      omega
    unfold halfEven
    rw [← heq]
    dsimp only
    split_ifs <;> omega

/-- What is rounded does not depend on the unit that both are counted in. -/
theorem halfEven_mul_pow (n j k : Nat) : halfEven (n * 2 ^ j) (k + j) = halfEven n k := by
  have hpos : 0 < 2 ^ j := Nat.two_pow_pos j
  unfold halfEven
  dsimp only
  rw [Nat.pow_add, Nat.mul_div_mul_right _ _ hpos, Nat.mul_mod_mul_right, ← Nat.mul_assoc]
  simp only [Nat.mul_lt_mul_right hpos]

theorem halfEven_zero (n : Nat) : halfEven n 0 = n := by
  simp [halfEven, Nat.mod_one]

theorem halfEven_mul (m k : Nat) : halfEven (m * 2 ^ k) k = m := by
  have h := halfEven_mul_pow m k 0
  rwa [Nat.zero_add, halfEven_zero] at h

/-- A number of `53 + k` bits is rounded to 53 bits, or to the next power of two. -/
theorem halfEven_bounds {n k : Nat} (h : n.log2 = 52 + k) :
    2 ^ 52 ≤ halfEven n k ∧ halfEven n k ≤ 2 ^ 53 := by
  have hn : n ≠ 0 := by
    rintro rfl
    rw [Nat.log2_zero] at h
    omega
  have hfirst := Nat.log2_self_le hn
  have hlast := Nat.lt_log2_self (n := n)
  rw [h, Nat.pow_add] at hfirst
  rw [h, Nat.add_right_comm, Nat.pow_add] at hlast
  constructor
  · exact (halfEven_mul ..).symm.trans_le (halfEven_mono hfirst _)
  · exact (halfEven_mono hlast.le _).trans_eq (halfEven_mul ..)

/-! ### Rounding to 53 bits -/

/-- How many bits of a number are too many for a double. -/
def excess (n : Nat) : Nat := n.log2 - 52

/-- The double nearest to a number. -/
def nearest (n : Nat) : Nat := halfEven n (excess n) * 2 ^ excess n

theorem log2_eq {n : Nat} (h : 2 ^ 52 ≤ n) : n.log2 = 52 + excess n := by
  have hlog := (Nat.le_log2 (show n ≠ 0 by omega)).2 h
  rw [excess]
  omega

theorem nearest_of_lt {n : Nat} (h : n < 2 ^ 53) : nearest n = n := by
  have hexcess : excess n = 0 := by
    by_cases hn : n = 0
    · subst hn
      rfl
    · have hlog := (Nat.log2_lt hn).2 h
      rw [excess]
      omega
  rw [nearest, hexcess, halfEven_zero, Nat.pow_zero, Nat.mul_one]

theorem nearest_bounds {n : Nat} (h : n ≠ 0) :
    2 ^ n.log2 ≤ nearest n ∧ nearest n ≤ 2 ^ (n.log2 + 1) := by
  by_cases hsmall : n < 2 ^ 53
  · rw [nearest_of_lt hsmall]
    exact ⟨Nat.log2_self_le h, Nat.lt_log2_self.le⟩
  · have hlog := log2_eq (show 2 ^ 52 ≤ n by omega)
    obtain ⟨hfirst, hlast⟩ := halfEven_bounds hlog
    rw [hlog, Nat.add_right_comm, Nat.pow_add, Nat.pow_add, nearest]
    exact ⟨Nat.mul_le_mul_right _ hfirst, Nat.mul_le_mul_right _ hlast⟩

theorem nearest_mono {n n' : Nat} (h : n ≤ n') : nearest n ≤ nearest n' := by
  by_cases hn : n = 0
  · rw [hn, nearest_of_lt (by decide)]
    exact Nat.zero_le _
  · have hn' : n' ≠ 0 := by omega
    have hlog : n.log2 ≤ n'.log2 := (Nat.le_log2 hn').2 ((Nat.log2_self_le hn).trans h)
    obtain hlt | heq := Nat.lt_or_eq_of_le hlog
    · calc nearest n ≤ 2 ^ (n.log2 + 1) := (nearest_bounds hn).2
        _ ≤ 2 ^ n'.log2 := Nat.pow_le_pow_right (by decide) hlt
        _ ≤ nearest n' := (nearest_bounds hn').1
    · have hexcess : excess n = excess n' := by rw [excess, excess, heq]
      rw [nearest, nearest, hexcess]
      exact Nat.mul_le_mul_right _ (halfEven_mono h _)

/-- A number that a double holds, the mantissa times a power of two. -/
def IsDouble (d : Nat) : Prop := ∃ m e, m < 2 ^ 53 ∧ d = m * 2 ^ e

theorem isDouble_nearest (n : Nat) : IsDouble (nearest n) := by
  by_cases hsmall : n < 2 ^ 53
  · exact ⟨n, 0, hsmall, by rw [nearest_of_lt hsmall, Nat.pow_zero, Nat.mul_one]⟩
  · obtain hlt | heq := Nat.lt_or_eq_of_le (halfEven_bounds (log2_eq (show 2 ^ 52 ≤ n by omega))).2
    · exact ⟨_, _, hlt, rfl⟩
    · refine ⟨2 ^ 52, excess n + 1, by decide, ?_⟩
      rw [nearest, heq, Nat.pow_succ]
      omega

/-- **The nearest double is a double, and no other one is nearer.** -/
theorem nearest_spec (n : Nat) : IsDouble (nearest n) ∧
    ∀ d, IsDouble d → ((n : Int) - nearest n).natAbs ≤ ((n : Int) - d).natAbs := by
  refine ⟨isDouble_nearest n, ?_⟩
  rintro d ⟨m, e, hm, rfl⟩
  by_cases hsmall : n < 2 ^ 53
  · rw [nearest_of_lt hsmall, Int.sub_self]
    exact Nat.zero_le _
  · by_cases he : excess n ≤ e
    · -- A double with a greater exponent is a multiple of the unit.
      have hunit : m * 2 ^ e = m * 2 ^ (e - excess n) * 2 ^ excess n := by
        rw [Nat.mul_assoc, ← Nat.pow_add, Nat.sub_add_cancel he]
      rw [hunit]
      exact halfEven_nearest ..
    · -- One with a smaller exponent is below the power of two that the number begins with.
      have hfirst : 2 ^ 52 * 2 ^ excess n ≤ n := by
        rw [← Nat.pow_add, ← log2_eq (show 2 ^ 52 ≤ n by omega)]
        exact Nat.log2_self_le (by omega)
      have hbelow : m * 2 ^ e ≤ 2 ^ 52 * 2 ^ excess n :=
        calc m * 2 ^ e ≤ 2 ^ 53 * 2 ^ e := Nat.mul_le_mul_right _ hm.le
          _ = 2 ^ 52 * 2 ^ (e + 1) := by rw [Nat.pow_succ 2 52, Nat.mul_assoc, Nat.pow_succ 2 e, Nat.mul_comm 2]
          _ ≤ 2 ^ 52 * 2 ^ excess n :=
            Nat.mul_le_mul_left _ (Nat.pow_le_pow_right (by decide) (Nat.lt_of_not_le he))
      have hnear := halfEven_nearest n (excess n) (2 ^ 52)
      rw [nearest]
      omega

/-! ### Integers -/

/-- The double nearest to an integer. -/
def nearestInt : Int → Int
  | .ofNat n => nearest n
  | .negSucc n => -nearest (n + 1)

/-- Up to `2 ^ 53` on either side, every integer is a double. -/
theorem nearestInt_of_le {a : Int} (h : a.natAbs ≤ 2 ^ 53) : nearestInt a = a := by
  have hnearest (n : Nat) (hn : n ≤ 2 ^ 53) : nearest n = n := by
    obtain hlt | rfl := Nat.lt_or_eq_of_le hn
    · exact nearest_of_lt hlt
    · decide
  cases a with
  | ofNat n => exact congrArg Int.ofNat (hnearest n h)
  | negSucc n => exact congrArg (fun k : Nat => -(k : Int)) (hnearest (n + 1) h)

/-- The order is not reversed. -/
theorem nearestInt_mono {a b : Int} (h : a ≤ b) : nearestInt a ≤ nearestInt b := by
  cases a with
  | ofNat n =>
    cases b with
    | ofNat n' => exact Int.ofNat_le.2 (nearest_mono (Int.ofNat_le.1 h))
    | negSucc n' =>
      have hpos := Int.natCast_nonneg n
      exact absurd (hpos.trans h) (by omega)
  | negSucc n =>
    cases b with
    | ofNat n' =>
      rw [nearestInt, nearestInt]
      omega
    | negSucc n' =>
      exact Int.neg_le_neg (Int.ofNat_le.2 (nearest_mono (by omega)))

theorem nearestInt_lt {a b : Int} (hsmall : a.natAbs < 2 ^ 53 ∨ b.natAbs < 2 ^ 53) (h : a < b) :
    nearestInt a < nearestInt b := by
  by_cases ha : a.natAbs ≤ 2 ^ 53
  · by_cases hb : b.natAbs ≤ 2 ^ 53
    · rwa [nearestInt_of_le ha, nearestInt_of_le hb]
    · have hlarge := nearestInt_mono (show 2 ^ 53 ≤ b by omega)
      rw [nearestInt_of_le (by decide)] at hlarge
      rw [nearestInt_of_le ha]
      omega
  · have hlarge := nearestInt_mono (show a ≤ -2 ^ 53 by omega)
    rw [nearestInt_of_le (a := -2 ^ 53) (by decide)] at hlarge
    rw [nearestInt_of_le (show b.natAbs ≤ 2 ^ 53 by omega)]
    omega

/-- **Integers of which one has at most 53 bits stand as their doubles do.** -/
theorem compare_nearestInt {a b : Int} (h : a.natAbs < 2 ^ 53 ∨ b.natAbs < 2 ^ 53) :
    compare (nearestInt a) (nearestInt b) = compare a b := by
  obtain hlt | rfl | hgt := Int.lt_trichotomy a b
  · rw [Int.compare_eq_lt.2 hlt, Int.compare_eq_lt.2 (nearestInt_lt h hlt)]
  · rw [Int.compare_eq_eq.2 rfl, Int.compare_eq_eq.2 rfl]
  · rw [Int.compare_eq_gt.2 hgt, Int.compare_eq_gt.2 (nearestInt_lt h.symm hgt)]

end DocumentStore.Double
