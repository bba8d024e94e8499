/-! Machine words of 64 bits, in which counts and offsets are held, and the bounds of what they hold. -/
namespace DocumentStore.Word

/-- The first integer past the unsigned range, two to the power of 64. -/
def unsignedEnd : Nat := 18446744073709551616

/-- The first integer past the signed range, two to the power of 63. -/
def signedEnd : Nat := 9223372036854775808

/-- The integer, where 64 signed bits hold it. -/
def signed? (n : Int) : Option Int := if -signedEnd ≤ n ∧ n < signedEnd then some n else none

theorem signed?_eq {n : Int} (h : -signedEnd ≤ n ∧ n < signedEnd) : signed? n = some n := if_pos h

/-- The sum of two words, where a word holds it. -/
def sum? (a b : UInt64) : Option UInt64 :=
  if a.toNat + b.toNat < unsignedEnd then some (a + b) else none

theorem sum?_eq_none_iff {a b : UInt64} : sum? a b = none ↔ unsignedEnd ≤ a.toNat + b.toNat := by
  unfold sum?
  split
  · next h => exact ⟨nofun, fun hend => absurd h (Nat.not_lt.2 hend)⟩
  · next h => exact ⟨fun _ => Nat.not_lt.1 h, fun _ => rfl⟩

theorem sum?_eq_some_iff {a b c : UInt64} : sum? a b = some c ↔ c.toNat = a.toNat + b.toNat := by
  have hsum : (a + b).toNat = (a.toNat + b.toNat) % unsignedEnd := UInt64.toNat_add a b
  have hc : c.toNat < unsignedEnd := c.toNat_lt
  unfold sum?
  constructor
  · intro h
    obtain ⟨hfits, h⟩ := Option.ite_none_right_eq_some.1 h
    rw [← Option.some.inj h, hsum, Nat.mod_eq_of_lt hfits]
  · intro h
    rw [h] at hc
    rw [if_pos hc]
    refine congrArg some (UInt64.toNat_inj.1 ?_)
    rw [hsum, Nat.mod_eq_of_lt hc, h]

theorem toNat_max (a b : UInt64) : (max a b).toNat = max a.toNat b.toNat :=
  apply_ite UInt64.toNat (a ≤ b) b a

end DocumentStore.Word
