import DocumentStore.Proofs.Calendar.RoundTrip
import DocumentStore.Service.Expiry

/-! Expiries from ticks and from dates.

A tick is an instant of the years 1 to 9999, and its expiry is that of the date it is written as
(`expirySeconds?_ticks`): the seconds since 1970, rounded down also before it. Neither calculation leaves
64 signed bits. -/
namespace DocumentStore
open Calendar (Date Instant)

/-- The seconds of what a clock shows, in words of 64 signed bits; none where one does not hold a step. -/
def Calendar.Instant.wordSeconds? (t : Instant) : Option Int := do
  let days ← Word.signed? t.date.dayNumber
  let midnight ← Word.signed? (days * 86400)
  let sinceMidnight ← Word.signed? (t.hour * 3600 + t.minute * 60 + min t.second 59)
  Word.signed? (midnight + sinceMidnight)

namespace Ticks

/-- The start of the year 1. -/
def start : Date := ⟨1, 1, 1⟩

/-- The instant so many ticks after the start of the year 1. -/
def instant (ticks : Int) : Instant where
  seconds := start.dayNumber * 86400 + ticks / perSecond
  nanos := (ticks % perSecond).toNat * 100
  nanos_lt := by
    unfold perSecond Calendar.billion
    omega
  leap := by
    unfold perSecond Calendar.billion
    omega

example : (instant 0).preciseText = "0001-01-01T00:00:00.0000000Z" := by decide +kernel

example : (instant last).preciseText = "9999-12-31T23:59:59.9999999Z" := by decide +kernel

variable {t : Int}

theorem dayNumber_start : start.dayNumber = -719162 := by decide

theorem seconds_instant (t : Int) : (instant t).seconds = (t - ofEpoch) / perSecond := by
  show start.dayNumber * 86400 + t / perSecond = (t - ofEpoch) / perSecond
  rw [dayNumber_start]
  unfold ofEpoch perSecond
  omega

/-- Ticks lie in the years 1 to 9999. -/
theorem hasPlainYear_instant (hfirst : 0 ≤ t) (hlast : t ≤ last) : (instant t).HasPlainYear := by
  have hday : (instant t).date.dayNumber = (instant t).seconds / 86400 := Date.dayNumber_ofDayNumber _
  rw [seconds_instant, ofEpoch, perSecond] at hday
  unfold last at hlast
  have hfrom : start.year ≤ (instant t).date.year := by
    refine Date.year_le_of_dayNumber_le (by decide) (Instant.valid_date _) ?_
    rw [hday, dayNumber_start]
    omega
  have hto : (instant t).date.year ≤ (⟨9999, 12, 31⟩ : Date).year := by
    refine Date.year_le_of_dayNumber_le (Instant.valid_date _) (by decide) ?_
    rw [hday, show (⟨9999, 12, 31⟩ : Date).dayNumber = 2932896 by decide]
    omega
  exact ⟨Int.le_trans (by decide) hfrom, hto⟩

/-- A word holds the ticks since 1970, so that their difference never fails. -/
theorem signed?_sinceEpoch (hfirst : 0 ≤ t) (hlast : t ≤ last) :
    Word.signed? (t - ofEpoch) = some (t - ofEpoch) := by
  refine Word.signed?_eq ?_
  unfold last at hlast
  unfold ofEpoch Word.signedEnd
  omega

theorem seconds?_of_mem (hfirst : 0 ≤ t) (hlast : t ≤ last) : seconds? t = some (instant t).seconds := by
  rw [seconds?, if_pos ⟨hfirst, hlast⟩, signed?_sinceEpoch hfirst hlast, Option.map_some, seconds_instant]

theorem signed?_seconds (hfirst : 0 ≤ t) (hlast : t ≤ last) :
    Word.signed? (instant t).seconds = some (instant t).seconds := by
  refine Word.signed?_eq ?_
  rw [seconds_instant]
  unfold last at hlast
  unfold ofEpoch perSecond Word.signedEnd
  omega

/-- Integers that 64 signed bits do not hold are no ticks. -/
theorem signed?_bind_seconds? (t : Int) : (Json.Number.int t).signed?.bind seconds? = seconds? t := by
  show (Word.signed? t).bind seconds? = seconds? t
  rw [Word.signed?]
  split
  · rfl
  · next h =>
    unfold seconds? last
    unfold Word.signedEnd at h
    rw [if_neg (by omega), Option.bind_none]

/-- Days and seconds within the years that ticks reach are far below what 64 signed bits hold. -/
theorem signed?_clock {days sinceMidnight : Int} (hfirst : -719162 ≤ days) (hlast : days ≤ 2932896)
    (hclock : 0 ≤ sinceMidnight ∧ sinceMidnight < 86400) :
    (do
      let days ← Word.signed? days
      let midnight ← Word.signed? (days * 86400)
      let sinceMidnight ← Word.signed? sinceMidnight
      Word.signed? (midnight + sinceMidnight)) = some (days * 86400 + sinceMidnight) := by
  have hsigned {n : Int} (h : -62135596800 ≤ n ∧ n ≤ 253402300799) : Word.signed? n = some n :=
    Word.signed?_eq (by unfold Word.signedEnd; omega)
  rw [hsigned (by omega), Option.bind_eq_bind, Option.bind_some, hsigned (by omega), Option.bind_some,
    hsigned (by omega), Option.bind_some, hsigned (by omega)]

theorem wordSeconds?_instant (hfirst : 0 ≤ t) (hlast : t ≤ last) :
    (instant t).wordSeconds? = some (instant t).seconds := by
  have hday : (instant t).date.dayNumber = (instant t).seconds / 86400 := Date.dayNumber_ofDayNumber _
  have hclock := (instant t).clock_eq
  have hseconds := seconds_instant t
  unfold last at hlast
  unfold ofEpoch perSecond at hseconds
  unfold Instant.secondOfDay at hclock
  unfold Instant.wordSeconds?
  rw [signed?_clock (by omega) (by omega) (by omega), Option.some_inj]
  omega

end Ticks

/-- A date expires at its second, however much of that has passed. -/
theorem expirySeconds?_preciseText (name : String) {i : Instant} (h : i.HasPlainYear) :
    expirySeconds? name (some (.str i.preciseText)) = .ok (some i.seconds) := by
  have hread : Term.ofText i.preciseText = .date i.reread :=
    Except.ok.inj (Instant.ofValue_preciseText h)
  unfold expirySeconds?
  dsimp only
  rw [hread]
  exact congrArg (fun s => Except.ok (some s)) i.seconds_reread

/-- An integer expires as the tick that it is. -/
theorem expirySeconds?_int (name : String) (t : Int) : expirySeconds? name (some (.int t)) =
    (Ticks.seconds? t).elim (.error (.validation (.badExpiry name (.int t)))) fun n => .ok (some n) := by
  unfold expirySeconds? Json.Value.int
  dsimp only
  rw [Ticks.signed?_bind_seconds?]
  cases Ticks.seconds? t <;> rfl

/-- **A tick and the date that it is written as expire at the same second**, the one it falls into, and
no other integer is an expiry; 64 signed bits hold every step of both calculations. -/
theorem expirySeconds?_ticks (name : String) (t : Int) :
    (0 ≤ t → t ≤ Ticks.last → ∃ n : Int,
      n * Ticks.perSecond ≤ t - Ticks.ofEpoch ∧ t - Ticks.ofEpoch < (n + 1) * Ticks.perSecond ∧
      expirySeconds? name (some (.int t)) = .ok (some n) ∧
      expirySeconds? name (some (.str (Ticks.instant t).preciseText)) = .ok (some n) ∧
      Word.signed? (t - Ticks.ofEpoch) = some (t - Ticks.ofEpoch) ∧ Word.signed? n = some n ∧
      (Ticks.instant t).wordSeconds? = some n) ∧
    (t < 0 ∨ Ticks.last < t →
      expirySeconds? name (some (.int t)) = .error (.validation (.badExpiry name (.int t)))) := by
  constructor
  · intro hfirst hlast
    refine ⟨(Ticks.instant t).seconds, ?_, ?_, ?_, ?_, Ticks.signed?_sinceEpoch hfirst hlast, ?_,
      Ticks.wordSeconds?_instant hfirst hlast⟩
    · rw [Ticks.seconds_instant]
      exact Int.ediv_mul_le _ (by decide)
    · rw [Ticks.seconds_instant]
      exact Int.lt_ediv_add_one_mul_self _ (by decide)
    · rw [expirySeconds?_int, Ticks.seconds?_of_mem hfirst hlast]
      rfl
    · exact expirySeconds?_preciseText name (Ticks.hasPlainYear_instant hfirst hlast)
    · exact Ticks.signed?_seconds hfirst hlast
  · intro hout
    have hnone : Ticks.seconds? t = none := if_neg (by omega)
    rw [expirySeconds?_int, hnone]
    rfl

/-- The last tick before 1970 expires in the second before it. -/
theorem expirySeconds?_ticks_before1970 :
    (Ticks.instant 621355967999999999).preciseText = "1969-12-31T23:59:59.9999999Z" ∧
    expirySeconds? "expiresAt" (some (.int 621355967999999999)) = .ok (some (-1)) ∧
    expirySeconds? "expiresAt" (some (.str (Ticks.instant 621355967999999999).preciseText)) =
      .ok (some (-1)) ∧
    expirySeconds? "expiresAt" (some (.int (Ticks.last + 1))) =
      .error (.validation (.badExpiry "expiresAt" (.int (Ticks.last + 1)))) := by
  obtain ⟨n, hfrom, hto, htick, hdate, -⟩ :=
    (expirySeconds?_ticks "expiresAt" 621355967999999999).1 (by decide) (by decide)
  have hn : n = -1 := by
    unfold Ticks.perSecond Ticks.ofEpoch at hfrom hto
    omega
  subst hn
  exact ⟨by decide +kernel, htick, hdate,
    (expirySeconds?_ticks "expiresAt" (Ticks.last + 1)).2 (.inr (by decide))⟩

end DocumentStore
