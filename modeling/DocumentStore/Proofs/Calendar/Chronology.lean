import DocumentStore.Calendar.Instant

/-! What clocks show, in the order of time.

Every instant of a second is found again from the date and the time that a clock shows in that second and
the part of it that has passed (`Instant.ofClock?_of_second`). Of two instants the later one shows the
greater year, or in one year the greater month, and so on down to tenths of a microsecond
(`Instant.shown_lt_of_before`). -/
namespace DocumentStore.Calendar

namespace Date

variable {d e : Date}

/-- Of two days the later one has the greater year, or else the greater month, or else the greater day of
the month. -/
theorem lex_of_dayNumber_lt (hd : d.Valid) (he : e.Valid) (h : d.dayNumber < e.dayNumber) :
    d.year < e.year ∨ d.year = e.year ∧ (d.month < e.month ∨ d.month = e.month ∧ d.day < e.day) := by
  obtain ⟨y, k, hk, rfl⟩ := exists_ofMarch hd
  obtain ⟨z, l, hl, rfl⟩ := exists_ofMarch he
  rw [dayNumber_ofMarch y k hk, dayNumber_ofMarch z l hl] at h
  have hyear : y < z ∨ y = z ∧ k < l := by
    rcases Int.lt_trichotomy y z with hlt | heq | hgt
    · exact .inl hlt
    · subst heq
      exact .inr ⟨rfl, by omega⟩
    · have := marchStart_add_le hgt
      omega
  have hkmost := marchLength_le y
  have hlmost := marchLength_le z
  unfold ofMarch
  dsimp only
  split <;> split <;> dsimp only <;> omega

theorem year_le_of_dayNumber_le (hd : d.Valid) (he : e.Valid) (h : d.dayNumber ≤ e.dayNumber) :
    d.year ≤ e.year := by
  rcases Int.lt_or_eq_of_le h with hlt | heq
  · have := lex_of_dayNumber_lt hd he hlt
    omega
  · have hsame : d = e := by
      rw [← ofDayNumber_dayNumber hd, heq, ofDayNumber_dayNumber he]
    exact hsame ▸ Int.le_refl _

theorem day_le (hd : d.Valid) : d.month ≤ 12 ∧ d.day ≤ 31 := by
  obtain ⟨-, hmonth, -, hday⟩ := hd
  refine ⟨hmonth, Nat.le_trans hday ?_⟩
  unfold daysInMonth
  (repeat' split) <;> decide

end Date

namespace Instant

variable {a b t u : Instant}

theorem eq_of_fields (hseconds : a.seconds = b.seconds) (hnanos : a.nanos = b.nanos) : a = b := by
  cases a
  cases b
  cases hseconds
  cases hnanos
  rfl

theorem valid_date (t : Instant) : t.date.Valid := Date.valid_ofDayNumber _

theorem hour_lt (t : Instant) : t.hour < 24 := by
  unfold hour secondOfDay
  omega

theorem minute_lt (t : Instant) : t.minute < 60 := Nat.mod_lt _ (by decide)

/-- A clock shows second 60 in a leap second and at no other time. -/
theorem second_eq_iff (t : Instant) : t.second ≤ 60 ∧ (t.second = 60 ↔ billion ≤ t.nanos) := by
  have hleap := t.leap
  have hlt := t.nanos_lt
  unfold second secondOfDay billion at *
  omega

/-- A clock shows the seconds since midnight, second 60 as the one before. -/
theorem clock_eq (t : Instant) :
    t.hour * 3600 + t.minute * 60 + min t.second 59 = t.secondOfDay := by
  have hleap := t.leap
  unfold hour minute second secondOfDay billion at *
  omega

/-- **The instants of a second are found from what a clock shows in it**, leap seconds included. -/
theorem ofClock?_of_second (hyear : yearRange t.date.year) (hseconds : u.seconds = t.seconds)
    (hleap : billion ≤ u.nanos ↔ billion ≤ t.nanos) :
    ofClock? t.date t.hour t.minute t.second (u.nanos % billion) 0 = some u := by
  obtain ⟨hsecond, hsixty⟩ := t.second_eq_iff
  have hday : t.date.dayNumber = t.seconds / 86400 := Date.dayNumber_ofDayNumber _
  rw [ofClock?, dif_pos ⟨t.valid_date, hyear, t.hour_lt, t.minute_lt, hsecond, Nat.mod_lt _ (by decide)⟩]
  refine congrArg some (eq_of_fields ?_ ?_)
  · have hclock := t.clock_eq
    unfold secondOfDay at hclock
    dsimp only
    omega
  · have hlt := u.nanos_lt
    dsimp only
    split
    · next hsecond =>
      have := hleap.2 (hsixty.1 hsecond)
      unfold billion at *
      omega
    · next hsecond =>
      have := mt (fun h => hsixty.2 (hleap.1 h)) hsecond
      unfold billion at *
      omega

/-- Year, month, day, hour, minute, second and tenths of a microsecond, as a text shows them. -/
def shown (t : Instant) : List Int :=
  [t.date.year, t.date.month, t.date.day, t.hour, t.minute, t.second, (t.nanos / 100 : Nat)]

/-- The instants differ by a tenth of a microsecond at least, and the first is the earlier one. -/
def Before (a b : Instant) : Prop :=
  a.seconds < b.seconds ∨ a.seconds = b.seconds ∧ a.nanos / 100 < b.nanos / 100

/-- On one day the later second has the greater hour, or else the greater minute, or else the greater second
of the minute. Second 60 is the last that is shown in its minute. -/
theorem lex_of_secondOfDay_lt (h : a.secondOfDay < b.secondOfDay) :
    a.hour < b.hour ∨ a.hour = b.hour ∧
      (a.minute < b.minute ∨ a.minute = b.minute ∧ a.second < b.second) := by
  have hleap : billion ≤ a.nanos → a.secondOfDay % 60 = 59 := fun hnanos => by
    have := a.leap hnanos
    unfold secondOfDay
    omega
  have hlt := a.nanos_lt
  unfold hour minute second billion at *
  omega

/-- **The later instant shows the greater year, or else the greater month, and so on.** -/
theorem shown_lt_of_before (h : a.Before b) : a.shown < b.shown := by
  have hday : a.seconds / 86400 < b.seconds / 86400 ∨ a.seconds / 86400 = b.seconds / 86400 ∧
      (a.secondOfDay < b.secondOfDay ∨ a.secondOfDay = b.secondOfDay ∧ a.nanos / 100 < b.nanos / 100) := by
    unfold Before at h
    unfold secondOfDay
    omega
  simp only [shown, List.cons_lt_cons_iff]
  rcases hday with hlt | ⟨heq, hclock⟩
  · rw [← Date.dayNumber_ofDayNumber (a.seconds / 86400),
      ← Date.dayNumber_ofDayNumber (b.seconds / 86400)] at hlt
    have := Date.lex_of_dayNumber_lt a.valid_date b.valid_date hlt
    omega
  · have hdate : a.date = b.date := congrArg Date.ofDayNumber heq
    rw [hdate]
    rcases hclock with hlt | ⟨hsame, hnanos⟩
    · have := lex_of_secondOfDay_lt hlt
      omega
    · have hhour : a.hour = b.hour := congrArg (· / 3600) hsame
      have hminute : a.minute = b.minute := congrArg (· / 60 % 60) hsame
      have hsecond : a.second ≤ b.second := by
        unfold second billion
        omega
      omega

end Instant
end DocumentStore.Calendar
