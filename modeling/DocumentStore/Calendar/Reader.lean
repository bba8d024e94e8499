import DocumentStore.Calendar.Instant
import DocumentStore.Text.Scan

/-! Dates and times read from text.

`zoned?` reads RFC 3339 and turns the local time into UTC; `naive` reads a date and time without
an offset, taken as UTC, in which numbers may have fewer digits and white space before them. -/
namespace DocumentStore.Calendar
open Text (Scan)

/-- An optional fraction of a second, in nanoseconds; digits past the ninth are dropped. -/
def fraction : Scan Nat := do
  if ← Scan.optional '.' then
    let ds := (← Scan.digits 1 none).take 9
    return Scan.digitsValue ds * Nat.pow 10 (9 - ds.length)
  return 0

/-- The instant a scanner's reading denotes, failing where it denotes none. -/
def instant (read : Option Instant) : Scan Instant :=
  match read with
  | some t => pure t
  | none => failure

/-- Minutes ahead of UTC: `Z` or a sign, hours and minutes. -/
def offset : Scan Int := do
  let c ← Scan.satisfy fun c => c == 'Z' || c == 'z' || c == '+' || c == '-' || c == '\u2212'
  if c == 'Z' || c == 'z' then return 0
  let hours ← Scan.number 2 (some 2)
  Scan.char ':'
  let minutes ← Scan.number 2 (some 2)
  if 23 < hours ∨ 59 < minutes then failure
  let size : Int := 60 * hours + minutes
  return if c == '+' then size else -size

/-- A date and time in RFC 3339, in which a space may take the place of the `T`. -/
def zoned : Scan Instant := do
  let year ← Scan.number 4 (some 4)
  Scan.char '-'
  let month ← Scan.number 2 (some 2)
  Scan.char '-'
  let day ← Scan.number 2 (some 2)
  let _ ← Scan.satisfy fun c => c == 'T' || c == 't' || c == ' '
  let hour ← Scan.number 2 (some 2)
  Scan.char ':'
  let minute ← Scan.number 2 (some 2)
  Scan.char ':'
  let second ← Scan.number 2 (some 2)
  let nanos ← fraction
  let ahead ← offset
  instant (Instant.ofClock? ⟨year, month, day⟩ hour minute second nanos ahead)

/-- A number of at most `most` digits, white space before it. -/
def loose (most : Nat) : Scan Nat := do
  Scan.blanks
  Scan.number 1 (some most)

/-- A year: with a sign in any number of digits, without one in at most four. -/
def looseYear : Scan Int := do
  Scan.blanks
  if ← Scan.optional '-' then return -(← Scan.number 1 none)
  if ← Scan.optional '+' then return ← Scan.number 1 none
  return ← Scan.number 1 (some 4)

/-- A date and time without an offset. -/
def naive : Scan Instant := do
  let year ← looseYear
  Scan.char '-'
  let month ← loose 2
  Scan.char '-'
  let day ← loose 2
  Scan.char 'T'
  let hour ← loose 2
  Scan.char ':'
  let minute ← loose 2
  Scan.char ':'
  let second ← loose 2
  let nanos ← fraction
  instant (Instant.ofClock? ⟨year, month, day⟩ hour minute second nanos 0)

/-- A text that is a date and time in RFC 3339. -/
def Instant.zoned? (s : String) : Option Instant := Scan.all? zoned s

/-- A text that is a date and time, with an offset or without one. -/
def Instant.read? (s : String) : Option Instant := (Instant.zoned? s).or (Scan.all? naive s)

end DocumentStore.Calendar
