import ServiceMap.Json.Reader
import ServiceMap.Json.Writer

/-!
# Texts inside documents

Each character of a text is written as itself, as a short escape, as a code escape or, beyond the first 65536, as two of
them. Reading takes each of these forms as one character and leaves what is behind it. A code escape is only taken if
something stands behind it, and behind a character of a text its closing quote stands at the latest.
-/

namespace ServiceMap

/-! ### Hexadecimal digits -/

namespace Text

theorem hexDigits_one {n : Nat} (h : n < 16) : hexDigits 1 n = [Nat.digitChar n] := by
  simp [hexDigits, Nat.toDigits_of_lt_base h]

theorem hexDigits_succ {width : Nat} (hwidth : 0 < width) (n : Nat) :
    hexDigits (width + 1) n = hexDigits width (n / 16) ++ [Nat.digitChar (n % 16)] := by
  by_cases h : n < 16
  · obtain ⟨width, rfl⟩ := Nat.exists_eq_add_of_lt hwidth
    have hdiv : n / 16 = 0 := Nat.div_eq_of_lt h
    have hzero : Nat.digitChar 0 = '0' := rfl
    simp [hexDigits, Nat.toDigits_of_lt_base h, hdiv, Nat.mod_eq_of_lt h, List.replicate_succ']
  · rw [hexDigits, Nat.toDigits_of_base_le (by decide) (by omega), List.length_append, List.length_singleton,
      Nat.add_sub_add_right, ← List.append_assoc]
    rfl

theorem hexDigits_four {n : Nat} (h : n < 0x10000) : hexDigits 4 n =
    [Nat.digitChar (n / 16 / 16 / 16), Nat.digitChar (n / 16 / 16 % 16), Nat.digitChar (n / 16 % 16),
      Nat.digitChar (n % 16)] := by
  rw [hexDigits_succ (by decide), hexDigits_succ (by decide), hexDigits_succ (by decide), hexDigits_one (by omega)]
  rfl

end Text

namespace Json

theorem hexValue?_digitChar : ∀ n < 16, hexValue? (Nat.digitChar n) = some n := by
  decide

/-- Four digits spell the number that they were written for. -/
theorem hexNumber?_hexDigits {n : Nat} (h : n < 0x10000) :
    ∃ a b c d, Text.hexDigits 4 n = [a, b, c, d] ∧ hexNumber? a b c d = some n := by
  refine ⟨_, _, _, _, Text.hexDigits_four h, ?_⟩
  have hfirst : n / 16 / 16 / 16 < 16 := by omega
  have hmod : ∀ m : Nat, m % 16 < 16 := fun m => Nat.mod_lt m (by decide)
  simp only [hexNumber?, hexValue?_digitChar _ hfirst, hexValue?_digitChar _ (hmod _), bind, Option.bind, pure]
  rw [Option.some.injEq]
  omega

/-! ### Characters -/

variable {opening : List Char}

theorem readText_skip (taken left : List Char) :
    readText opening taken.length (taken ++ left) = readText opening 0 left := by
  induction taken with
  | nil => rfl
  | cons c taken ih => exact ih

/-- An escape of which `length` characters stand behind the backslash. -/
theorem readText_escape {letter c : Char} (more : List Char) {left : List Char}
    (h : readEscape letter (more ++ left) = .ok (c, more.length + 1)) :
    readText opening 0 ('\\' :: letter :: (more ++ left)) = withChar c (readText opening 0 left) := by
  have hskip : readText opening (more.length + 1) (letter :: (more ++ left)) = readText opening 0 left :=
    readText_skip (letter :: more) left
  have hbackslash : ¬('\\' : Char) = '"' := by decide
  rw [readText, if_neg hbackslash, if_pos rfl]
  simp only [h, hskip]

theorem readText_shortEscape {letter c : Char} (hletter : letter ≠ 'u') (h : shortEscape? letter = some c)
    (left : List Char) : readText opening 0 ('\\' :: letter :: left) = withChar c (readText opening 0 left) := by
  apply readText_escape []
  simp only [readEscape, hletter, if_false, h, List.length_nil, Nat.zero_add]

/-- No character has the number of half a character. -/
theorem not_isHalf (c : Char) : isHighHalf c.toNat = false ∧ isLowHalf c.toNat = false := by
  have hvalid : c.toNat < 0xd800 ∨ 0xdfff < c.toNat ∧ c.toNat < 0x110000 := c.valid
  simp only [isHighHalf, isLowHalf, Bool.and_eq_false_iff, decide_eq_false_iff_not]
  omega

theorem readText_codeEscape {c : Char} (h : c.toNat < 0x10000) {left : List Char} (hleft : left ≠ []) :
    readText opening 0 (codeEscape c.toNat ++ left) = withChar c (readText opening 0 left) := by
  obtain ⟨a, b, d, e, hdigits, hnumber⟩ := hexNumber?_hexDigits h
  obtain ⟨next, after, rfl⟩ := List.exists_cons_of_ne_nil hleft
  obtain ⟨hhigh, hlow⟩ := not_isHalf c
  rw [codeEscape, hdigits]
  apply readText_escape [a, b, d, e]
  simp only [readEscape, List.cons_append, List.nil_append, hnumber, if_true, joinEscape, hhigh]
  rw [codeChar, hhigh, hlow, Char.ofNat_toNat]
  rfl

theorem readText_pairEscape {high low : Nat} (hhigh : isHighHalf high = true) (hlow : isLowHalf low = true)
    {left : List Char} (hleft : left ≠ []) : readText opening 0 (codeEscape high ++ codeEscape low ++ left) =
      withChar (joinHalves high low) (readText opening 0 left) := by
  have hrange : high < 0x10000 ∧ low < 0x10000 := by
    simp only [isHighHalf, isLowHalf, Bool.and_eq_true, decide_eq_true_eq] at hhigh hlow
    omega
  obtain ⟨a, b, c, d, hdigits, hnumber⟩ := hexNumber?_hexDigits hrange.1
  obtain ⟨a', b', c', d', hdigits', hnumber'⟩ := hexNumber?_hexDigits hrange.2
  obtain ⟨next, after, rfl⟩ := List.exists_cons_of_ne_nil hleft
  rw [codeEscape, codeEscape, hdigits, hdigits']
  apply readText_escape [a, b, c, d, '\\', 'u', a', b', c', d']
  simp only [readEscape, List.cons_append, List.nil_append, hnumber, if_true, joinEscape, hhigh, hnumber', hlow,
    List.length_cons, List.length_nil]

/-- A character beyond the first 65536 and its halves. -/
theorem joinHalves_eq {c : Char} (h : ¬c.toNat < 0x10000) :
    isHighHalf (0xd800 + (c.toNat - 0x10000) / 0x400) = true ∧
      isLowHalf (0xdc00 + (c.toNat - 0x10000) % 0x400) = true ∧
      joinHalves (0xd800 + (c.toNat - 0x10000) / 0x400) (0xdc00 + (c.toNat - 0x10000) % 0x400) = c := by
  have hvalid : c.toNat < 0xd800 ∨ 0xdfff < c.toNat ∧ c.toNat < 0x110000 := c.valid
  have hcode : 0x10000 + (c.toNat - 0x10000) / 0x400 * 0x400 + (c.toNat - 0x10000) % 0x400 = c.toNat := by omega
  simp only [isHighHalf, isLowHalf, Bool.and_eq_true, decide_eq_true_eq]
  refine ⟨by omega, by omega, ?_⟩
  rw [joinHalves, Nat.add_sub_cancel_left, Nat.add_sub_cancel_left, hcode, Char.ofNat_toNat]

theorem readText_plain {c : Char} (hquote : c ≠ '"') (hbackslash : c ≠ '\\') (hvisible : ' ' ≤ c)
    (left : List Char) : readText opening 0 (c :: left) = withChar c (readText opening 0 left) := by
  have hcode : ¬c.toNat ≤ 0x1f := Nat.not_le.mpr hvisible
  rw [readText.eq_def]
  simp only [hquote, hbackslash, hcode, if_false]

theorem compactChar_cases (c : Char) :
    (∃ letter, letter ≠ 'u' ∧ shortEscape? letter = some c ∧ compactChar c = ['\\', letter]) ∨
    (c ≠ '"' ∧ c ≠ '\\' ∧ ' ' ≤ c ∧ c ≤ '~' ∧ compactChar c = [c]) ∨
    (c.toNat < 0x10000 ∧ compactChar c = codeEscape c.toNat) ∨
    (¬c.toNat < 0x10000 ∧ compactChar c = codeEscape (0xd800 + (c.toNat - 0x10000) / 0x400) ++
      codeEscape (0xdc00 + (c.toNat - 0x10000) % 0x400)) := by
  by_cases hquote : c = '"'
  · exact .inl ⟨'"', by decide, by rw [hquote]; rfl, by rw [hquote]; rfl⟩
  by_cases hbackslash : c = '\\'
  · exact .inl ⟨'\\', by decide, by rw [hbackslash]; rfl, by rw [hbackslash]; rfl⟩
  by_cases hnewline : c = '\n'
  · exact .inl ⟨'n', by decide, by rw [hnewline]; rfl, by rw [hnewline]; rfl⟩
  by_cases hreturn : c = '\r'
  · exact .inl ⟨'r', by decide, by rw [hreturn]; rfl, by rw [hreturn]; rfl⟩
  by_cases htab : c = '\t'
  · exact .inl ⟨'t', by decide, by rw [htab]; rfl, by rw [htab]; rfl⟩
  by_cases hfeed : c = '\x0c'
  · exact .inl ⟨'f', by decide, by rw [hfeed]; rfl, by rw [hfeed]; rfl⟩
  by_cases hbackspace : c = '\x08'
  · exact .inl ⟨'b', by decide, by rw [hbackspace]; rfl, by rw [hbackspace]; rfl⟩
  have hrest : compactChar c = if ' ' ≤ c ∧ c ≤ '~' then [c]
      else if c.toNat < 0x10000 then codeEscape c.toNat
      else codeEscape (0xd800 + (c.toNat - 0x10000) / 0x400) ++
        codeEscape (0xdc00 + (c.toNat - 0x10000) % 0x400) := by
    simp only [compactChar, hquote, hbackslash, hnewline, hreturn, htab, hfeed, hbackspace, if_false]
  by_cases hvisible : ' ' ≤ c ∧ c ≤ '~'
  · exact .inr (.inl ⟨hquote, hbackslash, hvisible.1, hvisible.2, by rw [hrest, if_pos hvisible]⟩)
  by_cases hcode : c.toNat < 0x10000
  · exact .inr (.inr (.inl ⟨hcode, by rw [hrest, if_neg hvisible, if_pos hcode]⟩))
  · exact .inr (.inr (.inr ⟨hcode, by rw [hrest, if_neg hvisible, if_neg hcode]⟩))

/-- However a character is written, it is taken as one. -/
theorem readText_compactChar (c : Char) {left : List Char} (hleft : left ≠ []) :
    readText opening 0 (compactChar c ++ left) = withChar c (readText opening 0 left) := by
  obtain ⟨letter, hletter, hescape, h⟩ | ⟨hquote, hbackslash, hvisible, -, h⟩ | ⟨hcode, h⟩ | ⟨hcode, h⟩ :=
    compactChar_cases c
  · rw [h]
    exact readText_shortEscape hletter hescape left
  · rw [h]
    exact readText_plain hquote hbackslash hvisible left
  · rw [h]
    exact readText_codeEscape hcode hleft
  · obtain ⟨hhigh, hlow, hjoin⟩ := joinHalves_eq hcode
    rw [h, readText_pairEscape hhigh hlow hleft, hjoin]

/-! ### Texts -/

theorem readText_quote (left : List Char) : readText opening 0 ('"' :: left) = .ok ([], left) := by
  rw [readText.eq_def]
  rfl

/-- A text is taken up to its closing quote. -/
theorem readText_flatMap (text left : List Char) :
    readText opening 0 (text.flatMap compactChar ++ '"' :: left) = .ok (text, left) := by
  induction text with
  | nil => exact readText_quote left
  | cons c text ih =>
    rw [List.flatMap_cons, List.append_assoc, readText_compactChar c (by simp), ih]
    rfl

end Json

end ServiceMap
