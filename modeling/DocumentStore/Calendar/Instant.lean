import DocumentStore.Calendar.Date

/-! Instants of Coordinated Universal Time, to the nanosecond, leap seconds included.

A leap second shares the second of the one before it and has a billion nanoseconds or more; it can
only follow the last second of a minute. -/
namespace DocumentStore.Calendar

/-- Nanoseconds in a second. -/
def billion : Nat := 1000000000

/-- Seconds since 1970-01-01T00:00:00Z, rounded down, and nanoseconds within the second. -/
structure Instant where
  seconds : Int
  nanos : Nat
  nanos_lt : nanos < 2 * billion
  leap : billion ≤ nanos → seconds % 60 = 59
deriving DecidableEq

namespace Instant

/-- Earlier or later, leap seconds in their place. -/
def order (a b : Instant) : Ordering := (compare a.seconds b.seconds).then (compare a.nanos b.nanos)

/-- The instant of a count of seconds and nanoseconds, where there is one. -/
def ofUnix? (seconds : Int) (nanos : Nat) : Option Instant :=
  if h : nanos < 2 * billion ∧ (billion ≤ nanos → seconds % 60 = 59) then
    some ⟨seconds, nanos, h.1, h.2⟩
  else none

/-- The years whose dates are read. -/
def yearRange (year : Int) : Prop := -262143 ≤ year ∧ year ≤ 262142

instance (year : Int) : Decidable (yearRange year) := inferInstanceAs (Decidable (_ ∧ _))

/-- The instant at which clocks `offset` minutes ahead of UTC show a date and a time; second 60 is
a leap second and may end any minute. -/
def ofClock? (date : Date) (hour minute second nanos : Nat) (offset : Int) : Option Instant :=
  if h : date.Valid ∧ yearRange date.year ∧ hour < 24 ∧ minute < 60 ∧ second ≤ 60 ∧ nanos < billion then
    some
      { seconds := date.dayNumber * 86400 + hour * 3600 + minute * 60 + min second 59 - offset * 60
        nanos := nanos + if second = 60 then billion else 0
        nanos_lt := by split <;> omega
        leap := by split <;> omega }
  else none

/-- The date in UTC. -/
def date (t : Instant) : Date := Date.ofDayNumber (t.seconds / 86400)

/-- Seconds since midnight. -/
def secondOfDay (t : Instant) : Nat := (t.seconds % 86400).toNat

def hour (t : Instant) : Nat := t.secondOfDay / 3600

def minute (t : Instant) : Nat := t.secondOfDay / 60 % 60

/-- The second shown by a clock: 60 in a leap second. -/
def second (t : Instant) : Nat := t.secondOfDay % 60 + t.nanos / billion

end Instant
end DocumentStore.Calendar
