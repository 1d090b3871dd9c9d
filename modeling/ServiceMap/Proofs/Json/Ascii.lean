import ServiceMap.Proofs.Json.RoundTrip

/-!
# Compact documents are printable

The compact form of a document, whatever it holds, is made of printable ASCII characters: it is a single line. Characters
of a text that are not printable are written as escapes, and what stands around texts is letters, digits and marks.
-/

namespace ServiceMap

namespace Text

/-- All characters are ASCII. -/
def IsAscii (cs : List Char) : Prop := ∀ c ∈ cs, c.toNat < 0x80

-- Named, as an instance that is searched for may run through all characters there are.
instance (cs : List Char) : Decidable (IsAscii cs) := List.decidableBAll (fun c : Char => c.toNat < 0x80) cs

/-- All characters are ASCII and none is a control character. -/
def IsPrintable (cs : List Char) : Prop := ∀ c ∈ cs, ' ' ≤ c ∧ c ≤ '~'

instance (cs : List Char) : Decidable (IsPrintable cs) := List.decidableBAll (fun c : Char => ' ' ≤ c ∧ c ≤ '~') cs

theorem isPrintable_nil : IsPrintable [] := by simp [IsPrintable]

@[simp] theorem isPrintable_cons {c : Char} {cs : List Char} :
    IsPrintable (c :: cs) ↔ (' ' ≤ c ∧ c ≤ '~') ∧ IsPrintable cs :=
  List.forall_mem_cons

@[simp] theorem isPrintable_append {cs cs' : List Char} :
    IsPrintable (cs ++ cs') ↔ IsPrintable cs ∧ IsPrintable cs' :=
  List.forall_mem_append

theorem IsPrintable.of_subset {cs cs' : List Char} (h : IsPrintable cs') (hsubset : cs ⊆ cs') : IsPrintable cs :=
  fun c hc => h c (hsubset hc)

theorem IsPrintable.isAscii {cs : List Char} (h : IsPrintable cs) : IsAscii cs :=
  fun c hc => Nat.lt_of_le_of_lt (h c hc).2 (by decide)

theorem IsPrintable.not_mem {cs : List Char} (h : IsPrintable cs) {c : Char} (hc : c < ' ') : c ∉ cs :=
  fun hmem => Char.not_le.mpr hc (h c hmem).1

theorem isPrintable_replicate (n : Nat) {c : Char} (h : ' ' ≤ c ∧ c ≤ '~') : IsPrintable (List.replicate n c) :=
  fun _ hd => List.eq_of_mem_replicate hd ▸ h

theorem isPrintable_digitChar : ∀ n < 16, ' ' ≤ Nat.digitChar n ∧ Nat.digitChar n ≤ '~' := by
  decide

theorem isPrintable_hexDigits {n : Nat} (h : n < 0x10000) : IsPrintable (hexDigits 4 n) := by
  have hfirst := isPrintable_digitChar (n / 16 / 16 / 16) (by omega)
  have hmod : ∀ m : Nat, ' ' ≤ Nat.digitChar (m % 16) ∧ Nat.digitChar (m % 16) ≤ '~' :=
    fun m => isPrintable_digitChar _ (Nat.mod_lt m (by decide))
  simp [hexDigits_four h, hfirst, hmod, isPrintable_nil]

end Text

open Text (IsAscii IsPrintable isPrintable_nil isPrintable_cons isPrintable_append isPrintable_replicate)

namespace Decimal

theorem isPrintable_digits (n : Nat) : IsPrintable (digits n) := by
  intro c hc
  have hdigit := isDigit_of_mem_digits hc
  simp only [Char.isDigit, Bool.and_eq_true, decide_eq_true_eq] at hdigit
  exact ⟨UInt32.le_trans (by decide) hdigit.1, UInt32.le_trans hdigit.2 (by decide)⟩

theorem isPrintable_chars (n : Int) : IsPrintable (chars n) := by
  rw [chars]
  split
  · exact isPrintable_cons.mpr ⟨by decide, isPrintable_digits _⟩
  · exact isPrintable_digits _

end Decimal

namespace Binary64

theorem isPrintable_exponentChars (exponent : Int) : IsPrintable (exponentChars exponent) := by
  have hsign : ' ' ≤ (if exponent < 0 then '-' else '+') ∧ (if exponent < 0 then '-' else '+') ≤ '~' := by
    split <;> decide
  simp [exponentChars, hsign, isPrintable_replicate, Decimal.isPrintable_digits]

theorem isPrintable_numeralChars {digits : List Char} (h : IsPrintable digits) (point : Int) :
    IsPrintable (numeralChars digits point) := by
  have hzeros : ∀ n, IsPrintable (List.replicate n '0') := fun n => isPrintable_replicate n (by decide)
  have htake := h.of_subset (List.take_subset point.toNat digits)
  have hdrop := h.of_subset (List.drop_subset point.toNat digits)
  have hpart : IsPrintable (if (digits.drop point.toNat).isEmpty then ['0'] else digits.drop point.toNat) := by
    split
    · decide
    · exact hdrop
  unfold numeralChars
  split
  · split
    · simp [hzeros, h]
    · simp only [isPrintable_append, isPrintable_cons]
      exact ⟨⟨htake, hzeros _⟩, by decide, hpart⟩
  · cases digits with
    | nil => exact isPrintable_exponentChars _
    | cons first rest =>
      obtain ⟨hfirst, hrest⟩ := isPrintable_cons.mp h
      have hfraction : IsPrintable (if rest.isEmpty then [] else '.' :: rest) := by
        split
        · exact isPrintable_nil
        · exact isPrintable_cons.mpr ⟨by decide, hrest⟩
      simp only [List.cons_append, isPrintable_cons, isPrintable_append]
      exact ⟨hfirst, hfraction, isPrintable_exponentChars _⟩

theorem isPrintable_charsWith {infinity nan : List Char} (hinfinity : IsPrintable infinity) (hnan : IsPrintable nan) (x : Binary64) :
    IsPrintable (x.charsWith infinity nan) := by
  have hsigned : ∀ (negative : Bool) {cs : List Char}, IsPrintable cs → IsPrintable (if negative then '-' :: cs else cs) := by
    intro negative cs hcs
    split
    · exact isPrintable_cons.mpr ⟨by decide, hcs⟩
    · exact hcs
  cases x with
  | nan => exact hnan
  | infinite negative => exact hsigned negative hinfinity
  | finite negative m e =>
    apply hsigned
    split
    · decide
    · exact isPrintable_numeralChars (Decimal.isPrintable_digits _) _

end Binary64

namespace Json

theorem isPrintable_codeEscape {n : Nat} (h : n < 0x10000) : IsPrintable (codeEscape n) := by
  simp [codeEscape, Text.isPrintable_hexDigits h]

theorem isPrintable_of_shortEscape? {letter c : Char} (h : shortEscape? letter = some c) :
    ' ' ≤ letter ∧ letter ≤ '~' := by
  unfold shortEscape? at h
  split at h
  all_goals first | decide | simp at h

theorem isPrintable_compactChar (c : Char) : IsPrintable (compactChar c) := by
  obtain ⟨letter, -, hescape, h⟩ | ⟨-, -, hblank, hvisible, h⟩ | ⟨hcode, h⟩ | ⟨hcode, h⟩ := compactChar_cases c
  · simp [h, isPrintable_of_shortEscape? hescape, isPrintable_nil]
  · simp [h, hblank, hvisible, isPrintable_nil]
  · rw [h]
    exact isPrintable_codeEscape hcode
  · have hvalid : c.toNat < 0xd800 ∨ 0xdfff < c.toNat ∧ c.toNat < 0x110000 := c.valid
    rw [h, isPrintable_append]
    exact ⟨isPrintable_codeEscape (by omega), isPrintable_codeEscape (by omega)⟩

theorem isPrintable_compactText (text : String) : IsPrintable (compactText text) := by
  have hchars : IsPrintable (text.toList.flatMap compactChar) := by
    intro c hc
    obtain ⟨d, _, hd⟩ := List.mem_flatMap.mp hc
    exact isPrintable_compactChar d c hd
  simp [compactText, hchars, isPrintable_nil]

theorem isPrintable_separated {separator : List Char} (hseparator : IsPrintable separator) {parts : List (List Char)}
    (h : ∀ part ∈ parts, IsPrintable part) : IsPrintable (separated separator parts) := by
  induction parts with
  | nil => exact isPrintable_nil
  | cons first parts ih =>
    obtain ⟨hfirst, hrest⟩ := List.forall_mem_cons.mp h
    cases parts with
    | nil => rwa [separated_singleton]
    | cons second parts =>
      rw [separated_cons_cons, isPrintable_append, isPrintable_append]
      exact ⟨hfirst, hseparator, ih hrest⟩

mutual

theorem isPrintable_compact : ∀ v : Json, IsPrintable v.compact
  | .null => by decide
  | .bool true => by decide
  | .bool false => by decide
  | .int n => Decimal.isPrintable_chars n
  | .float x => x.isPrintable_charsWith (by decide) (by decide)
  | .str s => isPrintable_compactText s
  | .arr items => by
    have hitems : IsPrintable (separated [','] (compactItems items)) := isPrintable_separated (by decide) (isPrintable_compactItems items)
    simp [compact, hitems, isPrintable_nil]
  | .obj fields => by
    have hfields : IsPrintable (separated [','] (compactFields fields)) :=
      isPrintable_separated (by decide) (isPrintable_compactFields fields)
    simp [compact, hfields, isPrintable_nil]

theorem isPrintable_compactItems : ∀ items : List Json, ∀ part ∈ compactItems items, IsPrintable part
  | [] => by simp [compactItems]
  | item :: items => by
    rw [compactItems, List.forall_mem_cons]
    exact ⟨isPrintable_compact item, isPrintable_compactItems items⟩

theorem isPrintable_compactFields : ∀ fields : List (String × Json), ∀ part ∈ compactFields fields, IsPrintable part
  | [] => by simp [compactFields]
  | (name, v) :: fields => by
    have hfield : IsPrintable (compactText name ++ ':' :: compact v) := by
      simp [isPrintable_compactText, isPrintable_compact v]
    rw [compactFields, List.forall_mem_cons]
    exact ⟨hfield, isPrintable_compactFields fields⟩

end

theorem isAscii_compact (v : Json) : IsAscii v.compact := (isPrintable_compact v).isAscii

end Json

end ServiceMap
