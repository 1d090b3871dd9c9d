import ServiceMap.Proofs.Json.Ascii
import ServiceMap.Proofs.Text.Utf8
import ServiceMap.Storage.Feed

/-!
# ASCII texts come in as they are

An ASCII text has one byte for each of its characters. Strict reading takes these bytes one by one and never stops, so a
feed of them has the text that was sent, as long as all its line ends are line feeds.
-/

namespace ServiceMap

namespace Text

/-! ### Bytes -/

theorem utf8EncodeChar_of_ascii {c : Char} (h : c.toNat < 0x80) : String.utf8EncodeChar c = [UInt8.ofNat c.toNat] := by
  have hle : c.val.toNat ≤ 127 := Nat.le_of_lt_succ h
  rw [String.utf8EncodeChar, if_pos hle]
  rfl

/-- The bytes of an ASCII text are the codes of its characters. -/
theorem toUTF8_of_ascii {text : String} (h : IsAscii text.toList) :
    text.toUTF8.toList = text.toList.map fun c => UInt8.ofNat c.toNat := by
  rw [toList_toUTF8, ← List.flatMap_singleton' (text.toList.map _), List.flatMap_map]
  exact List.flatMap_congr fun c hc => utf8EncodeChar_of_ascii (h c hc)

/-! ### Reading -/

theorem utf8Front_of_ascii {c : Char} (h : c.toNat < 0x80) (rest : List UInt8) :
    utf8Front (UInt8.ofNat c.toNat) rest = .char c 1 := by
  have hcode : (UInt8.ofNat c.toNat).toNat = c.toNat := by
    rw [UInt8.toNat_ofNat']
    omega
  have hlt : UInt8.ofNat c.toNat < 0x80 := UInt8.lt_iff_toNat_lt.mpr (lt_of_eq_of_lt hcode h)
  have hwidth : utf8Width (UInt8.ofNat c.toNat) = 1 := if_pos hlt
  simp [utf8Front, hwidth, hcode]

theorem strictAfter_of_ascii {text : List Char} (h : IsAscii text) (position : Nat) :
    strictAfter position 0 (text.map fun c => UInt8.ofNat c.toNat) = ⟨text, none⟩ := by
  induction text generalizing position with
  | nil => rfl
  | cons c text ih =>
    obtain ⟨hc, htext⟩ := List.forall_mem_cons.mp h
    simp only [List.map_cons, strictAfter, utf8Front_of_ascii hc, Nat.sub_self, ih htext]

theorem unifyLineEnds_of_not_mem {text : List Char} (h : '\r' ∉ text) : unifyLineEnds text = text := by
  induction text with
  | nil => rfl
  | cons c text ih =>
    obtain ⟨hc, htext⟩ := not_or.mp (List.mem_cons.not.mp h)
    rw [unifyLineEnds, ih htext]
    · exact fun _ heq _ => hc heq.symm
    · exact fun heq => hc heq.symm

end Text

namespace Feed

theorem flatten_cut {count : Nat} {bytes : List UInt8} (h : bytes.length ≤ count * pieceSize) :
    (cut count bytes).flatten = bytes := by
  induction count generalizing bytes with
  | zero =>
    have hnil : bytes = [] := List.length_eq_zero_iff.mp (by omega)
    rw [cut, hnil, List.flatten_nil]
  | succ count ih =>
    rw [cut]
    split
    · rename_i hempty
      exact (List.isEmpty_iff.mp hempty).symm
    · have hrest : (bytes.drop pieceSize).length ≤ count * pieceSize := by
        rw [Nat.succ_mul] at h
        rw [List.length_drop]
        omega
      rw [List.flatten_cons, ih hrest, List.take_append_drop]

theorem flatten_piecesOf (bytes : List UInt8) : (piecesOf bytes).flatten = bytes := by
  apply flatten_cut
  rw [pieceSize]
  omega

/-- An ASCII text whose lines end in line feeds is read from its bytes as it is. -/
theorem wholeText_ofBytes {text : String} (hascii : Text.IsAscii text.toList) (hends : '\r' ∉ text.toList) :
    (ofBytes text.toUTF8.toList).wholeText = .ok text.toList := by
  have hdecode : decode text.toUTF8.toList = .ok text.toList := by
    rw [decode, Text.readStrict, Text.toUTF8_of_ascii hascii, Text.strictAfter_of_ascii hascii]
  rw [ofBytes, wholeText, flatten_piecesOf, hdecode]
  exact congrArg Except.ok (Text.unifyLineEnds_of_not_mem hends)

end Feed

end ServiceMap
