import DocumentStore.Calendar.Printer
import DocumentStore.Text.Scan
import Mathlib.Algebra.Group.Nat.Defs
import Mathlib.Data.List.Basic

/-! Runs of digits, and numbers padded to a width.

Digits denote a number whatever zeros stand before them, and take the width they are padded to as long as
the number fits (`digitsValue_padded`, `length_padded`). Runs of one length are ordered as the numbers that
they denote, so texts that agree up to such a run are too (`padded_append_lt`). A scanner that is given
padded numbers reads them back (`number_padded`). -/
namespace DocumentStore
open Text (Scan)

variable {ds es rest : List Char}

namespace Text.Scan

variable {α β : Type}

/-! ### What digits denote -/

theorem digitsValue_eq (ds : List Char) : digitsValue ds = Nat.ofDigitChars 10 ds 0 :=
  Nat.ofDigitChars_eq_foldl.symm

theorem digitsValue_cons (d : Char) (ds : List Char) :
    digitsValue (d :: ds) = 10 ^ ds.length * (d.toNat - 48) + digitsValue ds := by
  rw [digitsValue_eq, digitsValue_eq, Nat.ofDigitChars_cons, Nat.ofDigitChars_eq_ofDigitChars_zero]
  simp

theorem digitsValue_lt (h : ∀ c ∈ ds, c.isDigit = true) : digitsValue ds < 10 ^ ds.length := by
  induction ds with
  | nil => exact Nat.one_pos
  | cons d ds ih =>
    have hrest := ih fun c hc => h c (List.mem_cons_of_mem d hc)
    have hdigit : d.toNat - 48 ≤ 9 :=
      Nat.sub_le_of_le_add (Char.isDigit_iff_toNat.1 (h d List.mem_cons_self)).2
    rw [digitsValue_cons, List.length_cons, Nat.pow_succ]
    calc 10 ^ ds.length * (d.toNat - 48) + digitsValue ds
        ≤ 10 ^ ds.length * 9 + digitsValue ds := Nat.add_le_add_right (Nat.mul_le_mul_left _ hdigit) _
      _ < 10 ^ ds.length * 10 := by omega

/-- Texts that begin with runs of one length are ordered as the numbers that these denote. -/
theorem append_lt_append (hlen : ds.length = es.length) (hds : ∀ c ∈ ds, c.isDigit = true)
    (hes : ∀ c ∈ es, c.isDigit = true) (h : digitsValue ds < digitsValue es) (s t : List Char) :
    ds ++ s < es ++ t := by
  induction ds generalizing es with
  | nil =>
    rw [List.length_eq_zero_iff.1 hlen.symm] at h
    exact absurd h (Nat.lt_irrefl _)
  | cons d ds ih =>
    cases es with
    | nil => cases hlen
    | cons e es =>
      have hlen' : ds.length = es.length := Nat.succ.inj hlen
      have hds' : ∀ c ∈ ds, c.isDigit = true := fun c hc => hds c (List.mem_cons_of_mem d hc)
      have hes' : ∀ c ∈ es, c.isDigit = true := fun c hc => hes c (List.mem_cons_of_mem e hc)
      rw [digitsValue_cons, digitsValue_cons, hlen'] at h
      rw [List.cons_append, List.cons_append, List.cons_lt_cons_iff]
      rcases Nat.lt_trichotomy d.toNat e.toNat with hlt | heq | hgt
      · exact .inl hlt
      · rw [heq] at h
        exact .inr ⟨Char.toNat_inj.1 heq, ih hlen' hds' hes' (Nat.lt_of_add_lt_add_left h)⟩
      · -- A larger first digit outweighs all that follow.
        have he : 48 ≤ e.toNat := (Char.isDigit_iff_toNat.1 (hes e List.mem_cons_self)).1
        have hstep : e.toNat - 48 + 1 ≤ d.toNat - 48 := by omega
        have hweight := Nat.mul_le_mul_left (10 ^ es.length) hstep
        have hrest := digitsValue_lt hes'
        rw [Nat.mul_add, Nat.mul_one] at hweight
        omega

/-! ### What scanners read -/

theorem bind_eq {p : Scan α} {f : α → Scan β} {cs : List Char} {a : α} (h : p cs = some (a, rest)) :
    (p >>= f) cs = f a rest := by
  show (p cs).bind (fun r => f r.1 r.2) = f a rest
  rw [h]
  rfl

theorem map_eq {p : Scan α} {f : α → β} {cs : List Char} {a : α} (h : p cs = some (a, rest)) :
    (f <$> p) cs = some (f a, rest) := by
  show (p cs).bind (fun r => some (f r.1, r.2)) = some (f a, rest)
  rw [h]
  rfl

theorem char_self (c : Char) (rest : List Char) : char c (c :: rest) = some ((), rest) := if_pos rfl

theorem satisfy_cons {p : Char → Bool} {c : Char} (h : p c = true) (rest : List Char) :
    satisfy p (c :: rest) = some (c, rest) := if_pos h

theorem optional_self (c : Char) (rest : List Char) : optional c (c :: rest) = some (true, rest) :=
  if_pos rfl

/-- As many digits as are asked for. -/
theorem digits_append (h : ∀ c ∈ ds, c.isDigit = true) (rest : List Char) :
    digits ds.length (some ds.length) (ds ++ rest) = some (ds, rest) := by
  have hrun : (ds ++ rest).takeWhile Char.isDigit = ds ++ rest.takeWhile Char.isDigit :=
    List.takeWhile_append_of_pos h
  simp [digits, hrun]

/-- All digits up to a character that is none. -/
theorem digits_append_cons {least : Nat} (h : ∀ c ∈ ds, c.isDigit = true) (hleast : least ≤ ds.length)
    {c : Char} (hc : c.isDigit = false) (rest : List Char) :
    digits least none (ds ++ c :: rest) = some (ds, c :: rest) := by
  have hrun : (ds ++ c :: rest).takeWhile Char.isDigit = ds := by
    rw [List.takeWhile_append_of_pos h, List.takeWhile_cons_of_neg (by simp [hc]), List.append_nil]
  simp [digits, hrun, hleast]

end Text.Scan

/-! ### Numbers padded to a width -/

namespace Calendar

variable {m n width : Nat}

theorem isDigit_of_mem_padded {c : Char} (h : c ∈ padded width n) : c.isDigit = true := by
  simp only [padded, List.leftpad, List.mem_append, List.mem_replicate] at h
  rcases h with ⟨-, rfl⟩ | h
  · rfl
  · exact Nat.isDigit_of_mem_toDigits (by decide) (by decide) h

theorem not_mem_padded {c : Char} (hc : c.isDigit = false) : c ∉ padded width n := fun h => by
  rw [isDigit_of_mem_padded h] at hc
  cases hc

theorem digitsValue_padded (width n : Nat) : Scan.digitsValue (padded width n) = n := by
  rw [Scan.digitsValue_eq, padded, List.leftpad, Nat.ofDigitChars_append, Nat.ofDigitChars_replicate_zero,
    Nat.mul_zero, Nat.ofDigitChars_ten_toDigits]

theorem length_padded (hwidth : 0 < width) (h : n < 10 ^ width) : (padded width n).length = width := by
  rw [padded, List.length_leftpad]
  exact Nat.max_eq_left ((Nat.length_toDigits_le_iff (by decide) hwidth).2 h)

/-- A number with more digits than its width is written at the width that it needs. -/
theorem padded_succ (hwidth : 0 < width) (h : 10 ^ width ≤ n) : padded (width + 1) n = padded width n := by
  have hlen : width < (Nat.toDigits 10 n).length := by
    rw [← Nat.not_le, Nat.length_toDigits_le_iff (by decide) hwidth]
    omega
  rw [padded, padded, List.leftpad, List.leftpad, Nat.sub_eq_zero_of_le hlen,
    Nat.sub_eq_zero_of_le (Nat.le_of_lt hlen)]

/-- Texts that begin with numbers of one width are ordered by the numbers, and by what follows where the
numbers agree. -/
theorem padded_append_lt {s t : List Char} (hlen : (padded width m).length = (padded width n).length)
    (h : m < n ∨ m = n ∧ s < t) : padded width m ++ s < padded width n ++ t := by
  rcases h with h | ⟨rfl, h⟩
  · refine Scan.append_lt_append hlen (fun _ => isDigit_of_mem_padded)
      (fun _ => isDigit_of_mem_padded) ?_ s t
    rwa [digitsValue_padded, digitsValue_padded]
  · exact List.append_left_lt h

/-- A padded number is read back at its width. -/
theorem number_padded (hwidth : 0 < width) (h : n < 10 ^ width) (rest : List Char) :
    Scan.number width (some width) (padded width n ++ rest) = some (n, rest) := by
  have hdigits : ∀ c ∈ padded width n, c.isDigit = true := fun _ => isDigit_of_mem_padded
  have hread := Scan.digits_append hdigits rest
  rw [length_padded hwidth h] at hread
  rw [Scan.number, Scan.map_eq hread, digitsValue_padded]

end Calendar
end DocumentStore
