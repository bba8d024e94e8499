import DocumentStore.Calendar.Instant

/-! Dates and times as text, in UTC: `2024-03-05T06:07:08` and a fraction of the second. -/
namespace DocumentStore.Calendar

/-- A number with leading zeros up to a width. -/
def padded (width n : Nat) : List Char := (Nat.toDigits 10 n).leftpad width '0'

/-- A year in four digits at least, with a sign outside 0 to 9999. -/
def yearText (year : Int) : List Char :=
  if 0 ≤ year ∧ year ≤ 9999 then padded 4 year.natAbs
  else (if year < 0 then '-' else '+') :: padded 4 year.natAbs

def Date.text (d : Date) : List Char :=
  yearText d.year ++ '-' :: padded 2 d.month ++ '-' :: padded 2 d.day

namespace Instant

/-- Date and time to the second. -/
def clockText (t : Instant) : List Char :=
  t.date.text ++ 'T' :: padded 2 t.hour ++ ':' :: padded 2 t.minute ++ ':' :: padded 2 t.second

/-- Date and time to the millisecond. -/
def text (t : Instant) : String :=
  String.ofList (t.clockText ++ '.' :: padded 3 (t.nanos % billion / 1000000) ++ ['Z'])

/-- The pattern that `text` follows. -/
def textPattern : String := "%Y-%m-%dT%H:%M:%S%.3fZ"

/-- Date and time to a tenth of a microsecond. In a leap second the fraction counts on past the
whole second and takes an eighth digit. -/
def preciseText (t : Instant) : String :=
  String.ofList (t.clockText ++ '.' :: padded 7 (t.nanos / 100) ++ ['Z'])

end Instant
end DocumentStore.Calendar
