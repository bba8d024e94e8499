import DocumentStore.Proofs.Calendar.RoundTrip
import DocumentStore.Proofs.Query.Quoting
import Mathlib.Data.String.Basic

/-! Written dates sort as the instants do.

Dates of the years 0 to 9999 have fields of fixed width, the greatest first, so their texts are ordered as
what clocks show (`Instant.preciseText_append_lt`). The eighth digit that the fraction takes in a leap
second does no harm: the seconds already differ from those of every other instant. So literals of dates
are ordered as the instants are, cut off at tenths of a microsecond (`Instant.preciseText_sorts`). -/
namespace DocumentStore.Calendar

variable {m n width : Nat} {s t : List Char}

/-- A field that both texts end with the same character, and what follows it. -/
theorem field_lt {c : Char} (hlen : (padded width m).length = (padded width n).length)
    (h : m < n ∨ m = n ∧ s < t) : padded width m ++ c :: s < padded width n ++ c :: t :=
  padded_append_lt hlen (h.imp_right fun h => ⟨h.1, List.cons_lt_cons_self.2 h.2⟩)

theorem length_padded_eq (hwidth : 0 < width) (hm : m < 10 ^ width) (hn : n < 10 ^ width) :
    (padded width m).length = (padded width n).length := by
  rw [length_padded hwidth hm, length_padded hwidth hn]

namespace Instant

variable {a b : Instant}

/-! ### Texts -/

/-- Within a second fractions have the same number of digits. -/
theorem length_fraction_eq (h : a.second = b.second) :
    (padded 7 (a.nanos / 100)).length = (padded 7 (b.nanos / 100)).length := by
  have halt := a.nanos_lt
  have hblt := b.nanos_lt
  have hleap : billion ≤ a.nanos ↔ billion ≤ b.nanos := by
    rw [← a.second_eq_iff.2, ← b.second_eq_iff.2, h]
  have height {n : Nat} (h : billion ≤ n) : padded 8 (n / 100) = padded 7 (n / 100) :=
    padded_succ (by decide) (by unfold billion at h; omega)
  unfold billion at *
  by_cases ha : 1000000000 ≤ a.nanos
  · have hb := hleap.1 ha
    rw [← height ha, ← height hb]
    exact length_padded_eq (by decide) (by omega) (by omega)
  · have hb := mt hleap.2 ha
    exact length_padded_eq (by decide) (by omega) (by omega)

/-- **The text of the earlier date comes first**, whatever follows the two. -/
theorem preciseText_append_lt (ha : a.HasPlainYear) (hb : b.HasPlainYear) (h : a.Before b)
    (s t : List Char) : a.preciseText.toList ++ s < b.preciseText.toList ++ t := by
  have hshown := shown_lt_of_before h
  simp only [shown, List.cons_lt_cons_iff] at hshown
  rw [toList_preciseText ha, toList_preciseText hb]
  simp only [List.append_assoc, List.cons_append]
  obtain ⟨hayear, hamost⟩ := ha
  obtain ⟨hbyear, hbmost⟩ := hb
  obtain ⟨hamonth, haday⟩ := Date.day_le a.valid_date
  obtain ⟨hbmonth, hbday⟩ := Date.day_le b.valid_date
  have hahour := a.hour_lt
  have hbhour := b.hour_lt
  have haminute := a.minute_lt
  have hbminute := b.minute_lt
  have hasecond := a.second_eq_iff.1
  have hbsecond := b.second_eq_iff.1
  -- From the year to the second: two fields that differ decide, and behind equal ones the next do.
  iterate 6
    refine field_lt (length_padded_eq (by decide) (by omega) (by omega))
      (hshown.imp (fun h => by omega) fun hsame => ⟨by omega, ?_⟩)
    replace hshown := hsame.2
  refine field_lt (length_fraction_eq (by omega)) (.inl ?_)
  rcases hshown with hlt | ⟨-, hnil⟩
  · omega
  · exact absurd hnil (List.lt_irrefl _)

theorem preciseText_lt (ha : a.HasPlainYear) (hb : b.HasPlainYear) (h : a.Before b) :
    a.preciseText < b.preciseText := by
  have hlt := preciseText_append_lt ha hb h [] []
  rw [List.append_nil, List.append_nil] at hlt
  exact String.lt_iff.2 hlt

/-! ### Literals -/

theorem toList_literal (h : a.HasPlainYear) :
    (Literal.text (.date a)).toList = '\'' :: (a.preciseText.toList ++ ['\'']) := by
  have hnumber (width n : Nat) : '\'' ∉ padded width n := not_mem_padded (by decide)
  have hquote : '\'' ∉ a.preciseText.toList := by
    rw [toList_preciseText h]
    simp [hnumber]
  have hliteral : Literal.text (.date a) = Literal.quote a.preciseText := String.intercalate_singleton
  rw [hliteral, Literal.toList_quote, Literal.escaped_of_not_mem hquote]

theorem literal_lt (ha : a.HasPlainYear) (hb : b.HasPlainYear) (h : a.Before b) :
    Literal.text (.date a) < Literal.text (.date b) := by
  rw [String.lt_iff, toList_literal ha, toList_literal hb]
  exact List.cons_lt_cons_self.2 (preciseText_append_lt ha hb h _ _)

/-! ### The order of instants -/

/-- Nothing behind the seventh digit is written. -/
theorem preciseText_truncated (t : Instant) : t.truncated.preciseText = t.preciseText := by
  have hfraction : t.truncated.nanos / 100 = t.nanos / 100 := Nat.mul_div_cancel _ (by decide)
  have hsecond : t.truncated.second = t.second := by
    show t.secondOfDay % 60 + t.nanos / 100 * 100 / billion = t.secondOfDay % 60 + t.nanos / billion
    unfold billion
    omega
  rw [preciseText, preciseText, hfraction, clockText, clockText, hsecond]
  rfl

theorem order_eq_gt_iff : a.order b = .gt ↔
    b.seconds < a.seconds ∨ a.seconds = b.seconds ∧ b.nanos < a.nanos := by
  rw [order, Ordering.then_eq_gt, Int.compare_eq_gt, Int.compare_eq_eq, Nat.compare_eq_gt]

/-- Of two instants the one is before the other, or they agree up to tenths of a microsecond. -/
theorem before_or_eq (a b : Instant) : a.Before b ∨ a.truncated = b.truncated ∨ b.Before a := by
  unfold Before
  by_cases h : a.seconds = b.seconds ∧ a.nanos / 100 = b.nanos / 100
  · exact .inr (.inl (eq_of_fields h.1 (congrArg (· * 100) h.2)))
  · omega

theorem Before.order_truncated (h : a.Before b) :
    a.truncated.order b.truncated ≠ .gt ∧ b.truncated.order a.truncated = .gt ∧ b.order a = .gt := by
  simp only [ne_eq, order_eq_gt_iff, truncated]
  unfold Before at h
  omega

theorem Before.truncated_ne (h : a.Before b) : a.truncated ≠ b.truncated := fun heq => by
  have hseconds : a.truncated.seconds = b.truncated.seconds := by rw [heq]
  have hnanos : a.truncated.nanos = b.truncated.nanos := by rw [heq]
  dsimp only [truncated] at hseconds hnanos
  unfold Before at h
  omega

/-- **Dates sort by their texts as by their instants.** A date that is not later than another has no later
text; two texts are equal exactly if the instants agree up to tenths of a microsecond; and literals are
ordered exactly as the instants are, cut off there. -/
theorem preciseText_sorts (ha : a.HasPlainYear) (hb : b.HasPlainYear) :
    (a.order b ≠ .gt → a.preciseText ≤ b.preciseText) ∧
    (a.preciseText = b.preciseText ↔ a.truncated = b.truncated) ∧
    (Literal.text (.date a) ≤ Literal.text (.date b) ↔ a.truncated.order b.truncated ≠ .gt) := by
  rcases before_or_eq a b with h | h | h
  · have hlt := preciseText_lt ha hb h
    exact ⟨fun _ => le_of_lt hlt, iff_of_false (ne_of_lt hlt) h.truncated_ne,
      iff_of_true (le_of_lt (literal_lt ha hb h)) h.order_truncated.1⟩
  · have htext : a.preciseText = b.preciseText := by
      rw [← preciseText_truncated a, ← preciseText_truncated b, h]
    have hliteral : Literal.text (.date a) = Literal.text (.date b) := by
      rw [← String.toList_inj, toList_literal ha, toList_literal hb, htext]
    refine ⟨fun _ => le_of_eq htext, iff_of_true htext h, iff_of_true (le_of_eq hliteral) ?_⟩
    rw [h, ne_eq, order_eq_gt_iff]
    omega
  · have hlt := preciseText_lt hb ha h
    obtain ⟨-, horder, hlater⟩ := h.order_truncated
    exact ⟨fun hle => absurd hlater hle, iff_of_false (ne_of_gt hlt) h.truncated_ne.symm,
      iff_of_false (not_le_of_gt (literal_lt hb ha h)) (not_not_intro horder)⟩

/-- A tenth of a microsecond behind the leap second at the end of the year 2016. -/
def yearStart : Instant := ⟨1483228800, 100, by decide, by decide⟩

/-- The leap second is written with one digit more than what is behind it, and sorts before it. -/
theorem preciseText_sorts_leapSecond :
    leapSecond.HasPlainYear ∧ yearStart.HasPlainYear ∧ leapSecond.order yearStart ≠ .gt ∧
      leapSecond.preciseText ≤ yearStart.preciseText ∧
      ¬Literal.text (.date yearStart) ≤ Literal.text (.date leapSecond) := by
  have hleap : leapSecond.HasPlainYear := by decide +kernel
  have hstart : yearStart.HasPlainYear := by decide +kernel
  have horder : leapSecond.order yearStart ≠ .gt := by decide
  refine ⟨hleap, hstart, horder, (preciseText_sorts hleap hstart).1 horder, ?_⟩
  rw [(preciseText_sorts hstart hleap).2.2]
  decide

end Instant
end DocumentStore.Calendar
