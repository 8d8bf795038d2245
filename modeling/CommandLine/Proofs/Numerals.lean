import CommandLine.Text.Decimal
import Mathlib.Data.List.Basic
import Mathlib.Data.List.TakeDrop
import Mathlib.Data.List.TakeWhile

/-!
# Decimal numerals read back

A numeral is made of digits, at least one, and stands for the number it was written for. In front of
anything that is no digit the numeral ends.

* `Text.isDigit_of_mem_ofNat`, `Text.ofNat_ne_nil` — the digits of a numeral.
* `Text.digitsValue_ofNat` — the number they stand for.
* `Text.span_ofNat` — a numeral in front of what follows it.
* `Text.eq_zero_of_head?_ofNat` — only the numeral of zero starts with a zero.
-/

namespace CommandLine

namespace Text

/-- A numeral consists of decimal digits. -/
theorem isDigit_of_mem_ofNat {n : Nat} {c : Char} (h : c ∈ ofNat n) : isDigit c = true := by
  have hdigit := Nat.isDigit_of_mem_toDigits (by decide) (by decide) h
  rw [Char.isDigit, Bool.and_eq_true, decide_eq_true_iff, decide_eq_true_iff] at hdigit
  rw [isDigit, Bool.and_eq_true, decide_eq_true_iff, decide_eq_true_iff]
  exact hdigit

theorem ofNat_ne_nil (n : Nat) : ofNat n ≠ [] := Nat.toDigits_ne_nil

/-- **A numeral stands for its number.** -/
theorem digitsValue_ofNat (n : Nat) : digitsValue (ofNat n) = n := Nat.ofDigitChars_ten_toDigits

/-- A numeral in front of something that does not start with a digit. -/
theorem span_ofNat (n : Nat) {rest : Text} (h : ∀ c ∈ rest.head?, isDigit c = false) :
    (ofNat n ++ rest).span isDigit = (ofNat n, rest) := by
  rw [List.span_eq_takeWhile_dropWhile,
    List.takeWhile_append_of_pos fun c hc => isDigit_of_mem_ofNat hc,
    List.dropWhile_append_of_pos fun c hc => isDigit_of_mem_ofNat hc]
  cases rest with
  | nil => rw [List.takeWhile_nil, List.dropWhile_nil, List.append_nil]
  | cons c rest =>
    have hc : ¬ isDigit c = true := by simp [h c rfl]
    rw [List.takeWhile_cons_of_neg hc, List.dropWhile_cons_of_neg hc, List.append_nil]

/-- Only the numeral of zero starts with a zero. -/
theorem eq_zero_of_head?_ofNat {n : Nat} (h : (ofNat n).head? = some '0') : n = 0 := by
  have hdigit : ∀ d < 10, Nat.digitChar d = '0' → d = 0 := by decide
  induction n using Nat.strongRecOn with
  | ind n ih =>
    rcases Nat.lt_or_ge n 10 with hlt | hge
    · rw [ofNat, Nat.toDigits_of_lt_base hlt, List.head?_cons, Option.some.injEq] at h
      exact hdigit n hlt h
    · -- behind the first digit there are more, and the number in front of the last one is not zero
      rw [ofNat, Nat.toDigits_of_base_le (by decide) hge,
        List.head?_append_of_ne_nil _ Nat.toDigits_ne_nil] at h
      have hzero := ih (n / 10) (by omega) h
      omega

end Text

end CommandLine
