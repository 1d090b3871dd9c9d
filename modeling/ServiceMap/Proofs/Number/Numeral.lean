import Mathlib.Data.List.TakeWhile
import ServiceMap.Number.Numeral
import ServiceMap.Proofs.Number.Decimal

/-!
# Numerals in texts are read as they are written

The digits of a natural number are in ASCII form, nothing is trimmed from them and no separator stands between them, so
the text is read as the number.
-/

namespace ServiceMap.Numeral

section Digits

variable {c : Char} {digits : List Char}

theorem toNat_of_isDigit (h : c.isDigit = true) : 48 ≤ c.toNat ∧ c.toNat ≤ 57 := by
  simpa [Char.isDigit, UInt32.le_iff_toNat_le] using h

theorem plainChar_of_isDigit (h : c.isDigit = true) : plainChar c = c := by
  have hascii := toNat_of_isDigit h
  rw [plainChar, if_pos (by omega)]

theorem isPlainBlank_of_isDigit (h : c.isDigit = true) : isPlainBlank c = false := by
  have hascii := toNat_of_isDigit h
  have hspace : c ≠ ' ' := by
    rintro rfl
    cases h
  simp only [isPlainBlank, hspace, decide_false, Bool.false_or, Bool.and_eq_false_iff, decide_eq_false_iff_not]
  omega

theorem plain_of_digits (h : ∀ c ∈ digits, c.isDigit = true) : plain (String.ofList digits) = digits := by
  have hplain : digits.map plainChar = digits := by
    rw [List.map_congr_left fun c hc => plainChar_of_isDigit (h c hc), List.map_id']
  rw [plain, String.toList_ofList, hplain]
  exact Text.trimOf_of_ends (fun c hc => isPlainBlank_of_isDigit (h c (List.mem_of_mem_head? hc)))
    (fun c hc => isPlainBlank_of_isDigit (h c (List.mem_of_mem_getLast? hc)))

theorem splitSign_of_digits (h : ∀ c ∈ digits, c.isDigit = true) : splitSign digits = (false, digits) := by
  unfold splitSign
  split
  · exact absurd (h '-' List.mem_cons_self) (by decide)
  · exact absurd (h '+' List.mem_cons_self) (by decide)
  · rfl

theorem dropSeparators_of_digits (h : ∀ c ∈ digits, c.isDigit = true) (afterDigit : Bool) :
    dropSeparators afterDigit digits = some digits := by
  induction digits generalizing afterDigit with
  | nil => rw [dropSeparators]
  | cons c digits ih =>
    rw [List.forall_mem_cons] at h
    have hseparator : c ≠ '_' := by
      rintro rfl
      cases h.1
    rw [dropSeparators, ih h.2]
    · rfl
    · exact fun heq => absurd heq hseparator
    · exact fun _ _ heq => absurd heq hseparator

end Digits

theorem readInteger_text {n : Nat} (h : Decimal.tooLong n = false) : readInteger (Decimal.text n) = .ok n := by
  have hdigits : ∀ c ∈ Decimal.digits n, c.isDigit = true := fun c hc => Decimal.isDigit_of_mem_digits hc
  have hlength : (Decimal.digits n).length ≤ Decimal.maxDigits := Decimal.tooLong_eq_false_iff.mp h
  have htext : Decimal.text n = String.ofList (Decimal.digits n) := rfl
  have hall : ∀ c ∈ Decimal.digits n, (c.isDigit || decide (c = '_')) = true := by
    intro c hc
    rw [hdigits c hc]
    rfl
  have htake : (Decimal.digits n).takeWhile (fun c => c.isDigit || decide (c = '_')) = Decimal.digits n :=
    List.takeWhile_eq_self_iff.mpr hall
  have hdrop : (Decimal.digits n).dropWhile (fun c => c.isDigit || decide (c = '_')) = [] :=
    List.dropWhile_eq_nil_iff.mpr hall
  rw [readInteger, htext, plain_of_digits hdigits, splitSign_of_digits hdigits]
  dsimp only
  rw [htake, hdrop, dropSeparators_of_digits hdigits]
  cases hcons : Decimal.digits n with
  | nil => exact absurd hcons (Decimal.digits_ne_nil n)
  | cons c rest =>
    dsimp only
    rw [← hcons, if_neg (Nat.not_lt.mpr hlength), List.isEmpty_nil, if_pos rfl]
    exact congrArg (fun m : Nat => Except.ok (m : Int)) (Decimal.ofDigits_digits n)

end ServiceMap.Numeral
