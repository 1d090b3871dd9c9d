import ServiceMap.Proofs.Text.LowerCase
import ServiceMap.Span.Identifier

/-!
# Canonical identifiers

The canonical form of an identifier is empty, or 16 characters long, or at least 32. It has no blanks at its ends and is in
lower case, so nothing is left to be done to it: a text is its own canonical form just if it is like that. The zeros that
fill it up neither come before a sign nor after the text.
-/

namespace ServiceMap.Identifier

/-! ### Filling up -/

/-- Zeros come in behind the sign, if there is one. -/
theorem exists_zeroFill_eq (width : Nat) (text : List Char) : ∃ sign rest, text = sign ++ rest ∧
    zeroFill width text = sign ++ List.replicate (width - text.length) '0' ++ rest := by
  rw [zeroFill.eq_def]
  split
  · exact ⟨['+'], _, rfl, rfl⟩
  · exact ⟨['-'], _, rfl, rfl⟩
  · exact ⟨[], text, rfl, rfl⟩

theorem length_zeroFill (width : Nat) (text : List Char) : (zeroFill width text).length = max width text.length := by
  obtain ⟨sign, rest, htext, heq⟩ := exists_zeroFill_eq width text
  have hlength := congrArg List.length htext
  rw [List.length_append] at hlength
  rw [heq, List.length_append, List.length_append, List.length_replicate]
  omega

/-- A text that is wide enough stays as it is. -/
theorem zeroFill_of_le {width : Nat} {text : List Char} (h : width ≤ text.length) : zeroFill width text = text := by
  obtain ⟨sign, rest, htext, heq⟩ := exists_zeroFill_eq width text
  rw [heq, Nat.sub_eq_zero_of_le h, List.replicate_zero, List.append_nil, ← htext]

theorem mem_zeroFill {width : Nat} {text : List Char} {c : Char} (h : c ∈ zeroFill width text) :
    c = '0' ∨ c ∈ text := by
  obtain ⟨sign, rest, htext, heq⟩ := exists_zeroFill_eq width text
  rw [heq, List.mem_append, List.mem_append] at h
  rw [htext, List.mem_append]
  rcases h with (hsign | hzero) | hrest
  · exact .inr (.inl hsign)
  · exact .inl (List.eq_of_mem_replicate hzero)
  · exact .inr (.inr hrest)

theorem isTrimmed_zeroFill {width : Nat} {text : List Char} (h : Text.IsTrimmed text) :
    Text.IsTrimmed (zeroFill width text) := by
  obtain ⟨sign, rest, rfl, heq⟩ := exists_zeroFill_eq width text
  have hzero : ∀ c ∈ List.replicate (width - (sign ++ rest).length) '0', Text.isBlank c = false := by
    intro c hc
    rw [List.eq_of_mem_replicate hc]
    decide
  have hend : ∀ {first zero last : Option Char} {c : Char},
      c ∈ first.or (zero.or last) → c ∈ zero ∨ c ∈ first.or last := by
    intro first zero last c hc
    cases first <;> cases zero <;> simp_all
  constructor
  · intro c hc
    rw [heq, List.head?_append, List.head?_append, Option.or_assoc] at hc
    rcases hend hc with hc | hc
    · exact hzero c (List.mem_of_mem_head? hc)
    · exact h.front c (by rwa [List.head?_append])
  · intro c hc
    rw [heq, List.getLast?_append, List.getLast?_append] at hc
    rcases hend hc with hc | hc
    · exact hzero c (List.mem_of_getLast? hc)
    · exact h.back c (by rwa [List.getLast?_append])

/-! ### Canonical texts -/

/-- A text like the canonical forms of identifiers. -/
structure IsCanonical (id : String) : Prop where
  length : id = "" ∨ id.length = 16 ∨ 32 ≤ id.length
  trimmed : Text.IsTrimmed id.toList
  lower : Text.lower id = id

theorem isCanonical_empty : IsCanonical "" := ⟨.inl rfl, ⟨by simp, by simp⟩, by decide⟩

theorem isCanonical_canonical (text : String) : IsCanonical (canonical text) := by
  simp only [canonical, Text.lower, Text.toList_trim, String.toList_ofList]
  -- The text before it is filled up: trimmed, and every character in lower case.
  have htrimmed := (Text.isTrimmed_trimOf text.toList).lowerAfter []
  have hsettled : ∀ c ∈ Text.lowerAfter [] (Text.trimOf Text.isBlank text.toList), Text.IsSettled c :=
    fun c hc => Text.isSettled_of_mem_lowerAfter hc
  generalize Text.lowerAfter [] (Text.trimOf Text.isBlank text.toList) = id at htrimmed hsettled
  split
  · exact isCanonical_empty
  · constructor
    · right
      rw [String.length_ofList, length_zeroFill, widthFor]
      split
      · exact .inr (by omega)
      · exact .inl (by omega)
    · rw [String.toList_ofList]
      exact isTrimmed_zeroFill htrimmed
    · rw [Text.lower, String.toList_ofList, Text.lowerAfter_of_isSettled]
      intro c hc
      rcases mem_zeroFill hc with rfl | hc
      · decide
      · exact hsettled c hc

theorem isCanonical_normalize (raw : Json) : IsCanonical (normalize raw) := by
  rw [normalize]
  split
  · exact isCanonical_empty
  · exact isCanonical_canonical _

/-- Nothing is left to be done to a canonical text. -/
theorem normalize_of_isCanonical {id : String} (h : IsCanonical id) : normalize (.str id) = id := by
  rw [normalize]
  split
  · rename_i hblank
    exact (String.isEmpty_iff.mp hblank).symm
  · rename_i hblank
    have hne : id ≠ "" := fun hempty => hblank (String.isEmpty_iff.mpr hempty)
    have hwide : widthFor id.toList.length ≤ id.toList.length := by
      rw [String.length_toList, widthFor]
      have := h.length.resolve_left hne
      split <;> omega
    have htrim : Text.trim id = id := by
      rw [Text.trim, Text.trimOf_of_ends h.trimmed.front h.trimmed.back, String.ofList_toList]
    rw [Json.display, canonical, htrim, h.lower, if_neg (by simpa using hne), zeroFill_of_le hwide,
      String.ofList_toList]

theorem normalize_eq_self_iff {id : String} : normalize (.str id) = id ↔ IsCanonical id :=
  ⟨fun h => h ▸ isCanonical_normalize _, normalize_of_isCanonical⟩

/-- Whatever value of a document an identifier is, its canonical form is a canonical text, and so its own canonical form. -/
theorem normalize_isCanonical (raw : Json) :
    IsCanonical (normalize raw) ∧ normalize (.str (normalize raw)) = normalize raw :=
  ⟨isCanonical_normalize raw, normalize_eq_self_iff.mpr (isCanonical_normalize raw)⟩

/-- Nine letters of which each becomes two in lower case are too many for the short form. -/
example : (normalize (.str (String.ofList (List.replicate 8 'İ'))), (normalize (.str "İİİİİİİİİ")).length,
    normalize (.str " -A1 ")) = (String.ofList (List.replicate 8 ['i', '\u0307']).flatten, 32, "-0000000000000a1") := by
  decide +kernel

end ServiceMap.Identifier
