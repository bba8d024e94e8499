import DocumentStore.Proofs.Calendar.Chronology
import DocumentStore.Proofs.Calendar.Padded
import DocumentStore.Term.Reading

/-! Written dates read back.

A date of the years 0 to 9999 is written with seven digits behind the second and read back as the instant,
cut off at tenths of a microsecond; only that of a leap second is not (`Instant.ofValue_preciseText_iff`).
There the fraction counts on past the whole second, and its eighth digit stands in front: the part of the
second that has passed is read as a tenth of it behind a first tenth. -/
namespace DocumentStore.Calendar
open Text (Scan)

variable {t : Instant} {ds : List Char}

/-! ### What the reader takes off a text -/

theorem offset_utc : offset ['Z'] = some (0, []) := rfl

/-- A fraction of at most nine digits, up to a character that is none. -/
theorem fraction_digits (hds : ∀ c ∈ ds, c.isDigit = true) (hsome : 1 ≤ ds.length) (hnine : ds.length ≤ 9)
    {c : Char} (hc : c.isDigit = false) (rest : List Char) :
    fraction ('.' :: (ds ++ c :: rest)) =
      some (Scan.digitsValue ds * 10 ^ (9 - ds.length), c :: rest) := by
  rw [fraction, Scan.bind_eq (Scan.optional_self '.' _), if_pos rfl,
    Scan.bind_eq (Scan.digits_append_cons hds hsome hc rest), List.take_of_length_le hnine]
  rfl

namespace Instant

/-- The year is written in four digits, without a sign. -/
def HasPlainYear (t : Instant) : Prop := 0 ≤ t.date.year ∧ t.date.year ≤ 9999

instance (t : Instant) : Decidable t.HasPlainYear := inferInstanceAs (Decidable (_ ∧ _))

theorem HasPlainYear.yearRange (h : t.HasPlainYear) : yearRange t.date.year := by
  obtain ⟨hnonneg, hmost⟩ := h
  exact ⟨by omega, by omega⟩

/-- The text of a date, field by field. -/
theorem toList_preciseText (h : t.HasPlainYear) : t.preciseText.toList =
    padded 4 t.date.year.natAbs ++ '-' :: (padded 2 t.date.month ++ '-' :: (padded 2 t.date.day ++
      'T' :: (padded 2 t.hour ++ ':' :: (padded 2 t.minute ++ ':' :: (padded 2 t.second ++
        '.' :: (padded 7 (t.nanos / 100) ++ ['Z'])))))) := by
  have hyear : yearText t.date.year = padded 4 t.date.year.natAbs := if_pos h
  simp only [preciseText, clockText, Date.text, hyear, String.toList_ofList, List.append_assoc,
    List.cons_append]

/-- The reader takes the fields off, and leaves the instant to them. -/
theorem zoned_preciseText (h : t.HasPlainYear) {part : List Char} {nanos : Nat}
    (hpart : part = padded 7 (t.nanos / 100)) (hsome : 1 ≤ part.length) (hnine : part.length ≤ 9)
    (hnanos : Scan.digitsValue part * 10 ^ (9 - part.length) = nanos) :
    zoned t.preciseText.toList =
      instant (ofClock? t.date t.hour t.minute t.second nanos 0) [] := by
  obtain ⟨hnonneg, hmost⟩ := h
  obtain ⟨hmonth, hday⟩ := Date.day_le t.valid_date
  have hhour := t.hour_lt
  have hminute := t.minute_lt
  have hsecond := t.second_eq_iff.1
  have hdigits : ∀ c ∈ part, c.isDigit = true := by
    rw [hpart]
    exact fun _ => isDigit_of_mem_padded
  have hdate : (⟨(t.date.year.natAbs : Int), t.date.month, t.date.day⟩ : Date) = t.date := by
    rw [Int.natAbs_of_nonneg hnonneg]
  rw [toList_preciseText ⟨hnonneg, hmost⟩, ← hpart, zoned,
    Scan.bind_eq (number_padded (by decide) (by omega) _), Scan.bind_eq (Scan.char_self '-' _),
    Scan.bind_eq (number_padded (by decide) (by omega) _), Scan.bind_eq (Scan.char_self '-' _),
    Scan.bind_eq (number_padded (by decide) (by omega) _), Scan.bind_eq (Scan.satisfy_cons rfl _),
    Scan.bind_eq (number_padded (by decide) (by omega) _), Scan.bind_eq (Scan.char_self ':' _),
    Scan.bind_eq (number_padded (by decide) (by omega) _), Scan.bind_eq (Scan.char_self ':' _),
    Scan.bind_eq (number_padded (by decide) (by omega) _),
    Scan.bind_eq (fraction_digits hdigits hsome hnine rfl _), Scan.bind_eq offset_utc, hdate, hnanos]

/-! ### What is read back -/

/-- The instant, cut off at tenths of a microsecond. -/
def truncated (t : Instant) : Instant where
  seconds := t.seconds
  nanos := t.nanos / 100 * 100
  nanos_lt := by
    have := t.nanos_lt
    omega
  leap := fun h => t.leap (by omega)

/-- What the text of an instant is read as: in a leap second the eighth digit of the fraction moves the
others on by one place. -/
def reread (t : Instant) : Instant :=
  if h : billion ≤ t.nanos then
    { seconds := t.seconds
      nanos := billion + t.nanos / 100 * 10
      nanos_lt := by
        have := t.nanos_lt
        unfold billion at *
        omega
      leap := fun _ => t.leap h }
  else t.truncated

theorem seconds_reread (t : Instant) : t.reread.seconds = t.seconds := by
  unfold reread
  split <;> rfl

theorem zoned?_preciseText (h : t.HasPlainYear) : zoned? t.preciseText = some t.reread := by
  have hlt := t.nanos_lt
  have hclock : ofClock? t.date t.hour t.minute t.second (t.reread.nanos % billion) 0 =
      some t.reread := by
    refine ofClock?_of_second h.yearRange t.seconds_reread ?_
    unfold reread truncated
    split <;> dsimp only <;> unfold billion at * <;> omega
  have hread : zoned t.preciseText.toList =
      instant (ofClock? t.date t.hour t.minute t.second (t.reread.nanos % billion) 0) [] := by
    by_cases hleap : billion ≤ t.nanos
    · have hdigits : padded 8 (t.nanos / 100) = padded 7 (t.nanos / 100) :=
        padded_succ (by decide) (by unfold billion at *; omega)
      have hlen : (padded 8 (t.nanos / 100)).length = 8 :=
        length_padded (by decide) (by unfold billion at *; omega)
      refine zoned_preciseText h hdigits (by omega) (by omega) ?_
      rw [hlen, digitsValue_padded, reread, dif_pos hleap]
      dsimp only
      unfold billion at *
      omega
    · have hlen : (padded 7 (t.nanos / 100)).length = 7 :=
        length_padded (by decide) (by unfold billion at *; omega)
      refine zoned_preciseText h rfl (by omega) (by omega) ?_
      rw [hlen, digitsValue_padded, reread, dif_neg hleap, truncated]
      dsimp only
      unfold billion at *
      omega
  rw [zoned?, Scan.all?, hread, hclock]
  rfl

theorem ofValue_preciseText (h : t.HasPlainYear) :
    Term.ofValue (.str t.preciseText) = .ok (.date t.reread) := by
  have hread : read? t.preciseText = some t.reread := by
    rw [read?, zoned?_preciseText h, Option.some_or]
  show Except.ok (Term.ofText t.preciseText) = _
  rw [Term.ofText, hread]

theorem reread_eq_truncated_iff : t.reread = t.truncated ↔ t.nanos < billion := by
  by_cases hleap : billion ≤ t.nanos
  · refine iff_of_false (fun hsame => ?_) (Nat.not_lt.2 hleap)
    have hnanos := congrArg nanos hsame
    rw [reread, dif_pos hleap, truncated] at hnanos
    dsimp only at hnanos
    unfold billion at *
    omega
  · rw [reread, dif_neg hleap]
    exact iff_of_true rfl (Nat.not_le.1 hleap)

/-- **A date is read back as the instant, cut off at tenths of a microsecond, exactly if that is not in a
leap second.** In a leap second it is read as the instant at which a tenth of the second has passed, and a
tenth of what had. -/
theorem ofValue_preciseText_iff (h : t.HasPlainYear) :
    (Term.ofValue (.str t.preciseText) = .ok (.date t.truncated) ↔ t.nanos < billion) ∧
    (billion ≤ t.nanos → ∃ u : Instant, Term.ofValue (.str t.preciseText) = .ok (.date u) ∧
      u.seconds = t.seconds ∧ u.nanos = billion + billion / 10 + (t.nanos - billion) / 100 * 10) := by
  rw [ofValue_preciseText h]
  refine ⟨?_, fun hleap => ⟨t.reread, rfl, t.seconds_reread, ?_⟩⟩
  · rw [← reread_eq_truncated_iff]
    exact ⟨fun hsame => Term.date.inj (Except.ok.inj hsame), fun hsame => by rw [hsame]⟩
  · rw [reread, dif_pos hleap]
    dsimp only
    unfold billion at *
    omega

/-- A leap day of the year 0, in the last second of a day. -/
def yearZero : Instant := ⟨-62162035201, 123456789, by decide, by decide⟩

theorem ofValue_preciseText_yearZero :
    yearZero.HasPlainYear ∧ yearZero.preciseText = "0000-02-29T23:59:59.1234567Z" ∧
      Term.ofValue (.str yearZero.preciseText) = .ok (.date yearZero.truncated) := by
  have hyear : yearZero.HasPlainYear := by decide +kernel
  exact ⟨hyear, by decide +kernel, (ofValue_preciseText_iff hyear).1.2 (by decide)⟩

/-- The leap second at the end of the year 2016. -/
def leapSecond : Instant := ⟨1483228799, 1000000000, by decide, fun _ => by decide⟩

/-- A leap second is written with eight digits, and read back as a tenth of a second later. -/
theorem exists_leapSecond_not_read_back :
    Term.ofValue (.str "2016-12-31T23:59:60Z") = .ok (.date leapSecond) ∧
    leapSecond.HasPlainYear ∧
    leapSecond.preciseText = "2016-12-31T23:59:60.10000000Z" ∧
    Term.ofValue (.str leapSecond.preciseText) ≠ .ok (.date leapSecond.truncated) := by
  refine ⟨by decide +kernel, by decide +kernel, by decide +kernel, ?_⟩
  decide +kernel

end Instant
end DocumentStore.Calendar
