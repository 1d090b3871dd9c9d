import Mathlib.Data.List.Basic
import ServiceMap.Number.Decimal

/-!
# Decimal notation is read as it is written

The digits of a natural number spell the number, they do not begin with zero unless it is zero, and there are at most
`maxDigits` of them unless the number is too long.
-/

namespace ServiceMap.Decimal

theorem ofDigits_digits (n : Nat) : ofDigits (digits n) = n := by
  have h := Nat.ofDigitChars_ten_toDigits (n := n)
  rwa [Nat.ofDigitChars_eq_foldl] at h

theorem ofSigned_digits (n : Int) : ofSigned (decide (n < 0)) (digits n.natAbs) = n := by
  rw [ofSigned, ofDigits_digits]
  by_cases hn : n < 0
  · rw [if_pos (decide_eq_true hn)]
    omega
  · rw [if_neg (by simpa using hn)]
    omega

theorem isDigit_of_mem_digits {n : Nat} {c : Char} (h : c ∈ digits n) : c.isDigit = true :=
  Nat.isDigit_of_mem_toDigits (by decide) (by decide) h

theorem digits_ne_nil (n : Nat) : digits n ≠ [] := Nat.toDigits_ne_nil

theorem head?_digits_append (n : Nat) (left : List Char) : (digits n ++ left).head? = (digits n).head? :=
  List.head?_append_of_ne_nil _ (digits_ne_nil n)

/-- No digits but those of zero begin with zero. -/
theorem head?_digits {n : Nat} (h : 0 < n) : (digits n).head? ≠ some '0' := by
  induction n using Nat.strongRecOn with
  | _ n ih =>
    by_cases hlt : n < 10
    · rw [digits, Nat.toDigits_of_lt_base hlt, List.head?_cons, ne_eq, Option.some.injEq, Nat.digitChar_eq_zero]
      omega
    · have hfront := ih (n / 10) (by omega) (by omega)
      rw [digits, Nat.toDigits_of_base_le (by decide) (by omega), List.head?_append_of_ne_nil _ Nat.toDigits_ne_nil]
      exact hfront

/-- An integer is too long if it has more digits than are read. -/
theorem tooLong_eq_false_iff {n : Int} : tooLong n = false ↔ (digits n.natAbs).length ≤ maxDigits := by
  rw [tooLong, decide_eq_false_iff_not, Nat.not_le, Nat.pow_eq, digits,
    Nat.length_toDigits_le_iff (by decide) (by decide)]

end ServiceMap.Decimal
