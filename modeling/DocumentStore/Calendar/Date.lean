/-! Dates of the Gregorian calendar, extended to all years, and their distance in days from
1970-01-01.

`ofDayNumber` and `dayNumber` are inverse to one another (`dayNumber_ofDayNumber`,
`ofDayNumber_dayNumber`), so a day has one date and the other way round. Internally years start in
March, which puts the leap day last. -/
namespace DocumentStore.Calendar

/-- A year, month and day, not necessarily of a day that exists. -/
structure Date where
  year : Int
  month : Nat
  day : Nat
deriving Repr, DecidableEq

def isLeapYear (year : Int) : Bool := year % 4 = 0 && (year % 100 != 0 || year % 400 = 0)

def daysInMonth (year : Int) (month : Nat) : Nat :=
  if month = 2 then if isLeapYear year then 29 else 28
  else if month = 4 ∨ month = 6 ∨ month = 9 ∨ month = 11 then 30
  else 31

namespace Date

/-- The date is that of a day. -/
def Valid (d : Date) : Prop :=
  1 ≤ d.month ∧ d.month ≤ 12 ∧ 1 ≤ d.day ∧ d.day ≤ daysInMonth d.year d.month

instance (d : Date) : Decidable d.Valid := inferInstanceAs (Decidable (_ ∧ _ ∧ _ ∧ _))

/-- The year of the March in or before which the date falls. -/
def marchYear (d : Date) : Int := if d.month ≤ 2 then d.year - 1 else d.year

/-- Months since March. -/
def marchMonth (d : Date) : Nat := if d.month ≤ 2 then d.month + 9 else d.month - 3

/-- Days from the first of March of year 0 to the first of March of a year. -/
def marchStart (year : Int) : Int := 365 * year + year / 4 - year / 100 + year / 400

/-- The length of the year that starts in March of `year`. -/
def marchLength (year : Int) : Nat := if isLeapYear (year + 1) then 366 else 365

/-- Days from 1970-01-01. -/
def dayNumber (d : Date) : Int :=
  marchStart d.marchYear + (153 * d.marchMonth + 2) / 5 + d.day - 719469

/-- The date in the year that starts in March of `year`, `day` days after its start. -/
def ofMarch (year : Int) (day : Nat) : Date :=
  let month := (5 * day + 2) / 153
  let rest := day - (153 * month + 2) / 5
  if month < 10 then ⟨year, month + 3, rest + 1⟩ else ⟨year + 1, month - 9, rest + 1⟩

/-- The date `n` days after 1970-01-01. -/
def ofDayNumber (n : Int) : Date :=
  let fromEra := n + 719468
  let inEra := (fromEra % 146097).toNat
  let century := min (inEra / 36524) 3
  let inCentury := inEra - 36524 * century
  let leap := inCentury / 1461
  let inLeap := inCentury % 1461
  let year := min (inLeap / 365) 3
  ofMarch (400 * (fromEra / 146097) + 100 * century + 4 * leap + year) (inLeap - 365 * year)

/-! ### The two directions are inverse -/

theorem isLeapYear_iff (y : Int) : isLeapYear y = true ↔ y % 4 = 0 ∧ (y % 100 ≠ 0 ∨ y % 400 = 0) := by
  simp [isLeapYear]

theorem marchStart_succ (y : Int) : marchStart (y + 1) = marchStart y + marchLength y := by
  unfold marchStart marchLength
  split <;> next h => rw [isLeapYear_iff] at h; omega

/-- A year starts no earlier than the year before it ends. -/
theorem marchStart_add_le {y z : Int} (h : y < z) : marchStart y + marchLength y ≤ marchStart z := by
  rw [← marchStart_succ]
  unfold marchStart
  omega

theorem marchStart_parts (era : Int) (century leap year : Nat) (hc : century ≤ 3) (hl : leap ≤ 24)
    (hy : year ≤ 3) :
    marchStart (400 * era + 100 * century + 4 * leap + year) =
      146097 * era + 36524 * century + 1461 * leap + 365 * year := by
  unfold marchStart
  omega

/-- A day lies in one year, at one distance from its start. -/
theorem ofDayNumber_eq_ofMarch (n : Int) :
    ∃ (y : Int) (k : Nat), k < marchLength y ∧ ofDayNumber n = ofMarch y k ∧
      marchStart y + k = n + 719468 := by
  unfold ofDayNumber
  dsimp only
  refine ⟨_, _, ?_, rfl, ?_⟩
  · unfold marchLength
    split
    · omega
    · next h => rw [isLeapYear_iff] at h; omega
  · rw [marchStart_parts _ _ _ _ (by omega) (by omega) (by omega)]
    omega

theorem marchLength_le (y : Int) : marchLength y ≤ 366 := by
  unfold marchLength
  split <;> omega

theorem dayNumber_ofMarch (y : Int) (k : Nat) (h : k < marchLength y) :
    (ofMarch y k).dayNumber = marchStart y + k - 719468 := by
  have := marchLength_le y
  unfold ofMarch
  dsimp only
  split <;> unfold dayNumber marchYear marchMonth <;> dsimp only
  · rw [if_neg (by omega), if_neg (by omega)]
    omega
  · rw [if_pos (by omega), if_pos (by omega), Int.add_sub_cancel]
    omega

theorem valid_ofMarch (y : Int) (k : Nat) (h : k < marchLength y) : (ofMarch y k).Valid := by
  have := marchLength_le y
  unfold ofMarch
  obtain ⟨m, hm⟩ : ∃ m, m = (5 * k + 2) / 153 := ⟨_, rfl⟩
  simp only [← hm]
  have hcases : m = 0 ∨ m = 1 ∨ m = 2 ∨ m = 3 ∨ m = 4 ∨ m = 5 ∨ m = 6 ∨ m = 7 ∨ m = 8 ∨ m = 9 ∨
      m = 10 ∨ m = 11 := by omega
  unfold marchLength at h
  rcases hcases with rfl | rfl | rfl | rfl | rfl | rfl | rfl | rfl | rfl | rfl | rfl | rfl <;>
    simp [Valid, daysInMonth] <;> first | omega | (split at h <;> simp_all <;> omega)

/-- A date whose place in its month lies inside the month is found from its place in the year. -/
theorem ofMarch_place (y : Int) (m r : Nat)
    (h : (5 * ((153 * m + 2) / 5 + r) + 2) / 153 = m) :
    ofMarch y ((153 * m + 2) / 5 + r) =
      if m < 10 then ⟨y, m + 3, r + 1⟩ else ⟨y + 1, m - 9, r + 1⟩ := by
  unfold ofMarch
  dsimp only
  rw [h, Nat.add_sub_cancel_left]

theorem exists_ofMarch {d : Date} (h : d.Valid) :
    ∃ (y : Int) (k : Nat), k < marchLength y ∧ d = ofMarch y k := by
  obtain ⟨y, m, n⟩ := d
  obtain ⟨h1, h2, h3, h4⟩ := h
  simp only at h1 h2 h3 h4
  have hcases : m = 1 ∨ m = 2 ∨ m = 3 ∨ m = 4 ∨ m = 5 ∨ m = 6 ∨ m = 7 ∨ m = 8 ∨ m = 9 ∨ m = 10 ∨ m = 11 ∨
      m = 12 := by omega
  unfold daysInMonth at h4
  have hday : n - 1 + 1 = n := by omega
  have hmost : n ≤ 31 := by (repeat' split at h4) <;> omega
  by_cases hm : m ≤ 2
  · refine ⟨y - 1, (153 * (m + 9) + 2) / 5 + (n - 1), ?_, ?_⟩
    · unfold marchLength
      rw [Int.sub_add_cancel]
      split at h4
      · split at h4 <;> simp_all <;> omega
      · split <;> omega
    · rw [ofMarch_place _ _ _ (by split at h4 <;> (try split at h4) <;> omega), if_neg (by omega)]
      simp [hday]
  · refine ⟨y, (153 * (m - 3) + 2) / 5 + (n - 1), ?_, ?_⟩
    · unfold marchLength
      split <;> omega
    · rw [ofMarch_place _ _ _ (by
        rcases hcases with rfl | rfl | rfl | rfl | rfl | rfl | rfl | rfl | rfl | rfl | rfl | rfl <;>
          simp at hm h4 ⊢ <;> omega), if_pos (by omega)]
      simp [hday]
      omega

theorem dayNumber_ofDayNumber (n : Int) : (ofDayNumber n).dayNumber = n := by
  obtain ⟨y, k, hk, he, hn⟩ := ofDayNumber_eq_ofMarch n
  rw [he, dayNumber_ofMarch y k hk]
  omega

theorem valid_ofDayNumber (n : Int) : (ofDayNumber n).Valid := by
  obtain ⟨y, k, hk, he, _⟩ := ofDayNumber_eq_ofMarch n
  exact he ▸ valid_ofMarch y k hk

/-- A valid date is that of its day. -/
theorem ofDayNumber_dayNumber {d : Date} (h : d.Valid) : ofDayNumber d.dayNumber = d := by
  obtain ⟨y, k, hk, rfl⟩ := exists_ofMarch h
  obtain ⟨z, l, hl, he, hn⟩ := ofDayNumber_eq_ofMarch (ofMarch y k).dayNumber
  rw [dayNumber_ofMarch y k hk] at hn
  have hyz : y = z := by
    rcases Int.lt_trichotomy y z with hlt | heq | hgt
    · have := marchStart_add_le hlt; omega
    · exact heq
    · have := marchStart_add_le hgt; omega
  subst hyz
  have hkl : l = k := by omega
  rw [he, hkl]

end Date
end DocumentStore.Calendar
