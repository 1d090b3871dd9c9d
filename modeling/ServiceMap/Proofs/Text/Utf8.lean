import Mathlib.Tactic.SplitIfs
import ServiceMap.Text.Lines
import ServiceMap.Text.Utf8

/-!
# Lenient reading, line by line

Lenient reading never looks past a byte that continues no character: what stands before such a byte is read as if the
bytes ended there, and what stands from it on as if they began there. A line feed is such a byte, and nothing else is
read as one. So bytes can be read as a whole and fall into lines then, or fall into lines and be read line by line. What
is read from the bytes of a text is the text.
-/

namespace ServiceMap.Text

/-! ### Bytes by their numbers -/

theorem isContinuation_iff {byte : UInt8} : isContinuation byte = true ↔ 0x80 ≤ byte.toNat ∧ byte.toNat < 0xc0 := by
  simp [isContinuation, UInt8.lt_iff_toNat_lt, UInt8.le_iff_toNat_le]

theorem mayFollow_iff {first second : UInt8} : mayFollow first second = true ↔
    0x80 ≤ second.toNat ∧ second.toNat < 0xc0 ∧ (first.toNat = 0xe0 → 0xa0 ≤ second.toNat) ∧
      (first.toNat = 0xed → second.toNat < 0xa0) ∧ (first.toNat = 0xf0 → 0x90 ≤ second.toNat) ∧
      (first.toNat = 0xf4 → second.toNat < 0x90) := by
  have hfirst : ∀ byte : UInt8, first = byte ↔ first.toNat = byte.toNat := fun byte => UInt8.toNat_inj.symm
  simp only [mayFollow, Bool.and_eq_true, isContinuation_iff, Bool.not_eq_true', Bool.and_eq_false_imp, beq_iff_eq,
    hfirst, decide_eq_false_iff_not, UInt8.lt_iff_toNat_lt, UInt8.le_iff_toNat_le, Nat.not_lt, Nat.not_le,
    and_assoc, UInt8.reduceToNat]

theorem utf8Width_cases (first : UInt8) :
    first.toNat < 0x80 ∧ utf8Width first = 1 ∨
    (0x80 ≤ first.toNat ∧ first.toNat < 0xc2 ∨ 0xf5 ≤ first.toNat) ∧ utf8Width first = 0 ∨
    (0xc2 ≤ first.toNat ∧ first.toNat < 0xe0) ∧ utf8Width first = 2 ∨
    (0xe0 ≤ first.toNat ∧ first.toNat < 0xf0) ∧ utf8Width first = 3 ∨
    (0xf0 ≤ first.toNat ∧ first.toNat < 0xf5) ∧ utf8Width first = 4 := by
  simp only [utf8Width, UInt8.lt_iff_toNat_lt, UInt8.reduceToNat]
  split_ifs <;> omega

/-! ### One reading step -/

/-- What lenient reading makes of the front: the character it puts there, and how many bytes that is for. -/
def Utf8Front.taken : Utf8Front → Char × Nat
  | .char c length => (c, length)
  | .bad _ length => ('\ufffd', length)

theorem lenientAfter_cons (first : UInt8) (rest : List UInt8) : lenientAfter 0 (first :: rest) =
    (utf8Front first rest).taken.1 :: lenientAfter ((utf8Front first rest).taken.2 - 1) rest := by
  rw [lenientAfter]
  cases utf8Front first rest <;> rfl

theorem utf8Front_of_mayFollow {first second : UInt8} (hwidth : 2 ≤ utf8Width first)
    (hfollow : mayFollow first second = true) (rest : List UInt8) : utf8Front first (second :: rest) =
      utf8Tail 2 (first.toNat % Nat.pow 2 (7 - utf8Width first) * 0x40 + (second.toNat - 0x80))
        (utf8Width first - 2) rest := by
  have hsome : utf8Width first ≠ 0 := by omega
  have hmore : utf8Width first ≠ 1 := by omega
  simp [utf8Front, hsome, hmore, hfollow]

theorem utf8Tail_cons {byte : UInt8} (h : isContinuation byte = true) (taken value needed : Nat) (rest : List UInt8) :
    utf8Tail taken value (needed + 1) (byte :: rest) =
      utf8Tail (taken + 1) (value * 0x40 + (byte.toNat - 0x80)) needed rest :=
  if_pos h

theorem taken_utf8Tail_le (taken value needed : Nat) (bytes : List UInt8) :
    (utf8Tail taken value needed bytes).taken.2 ≤ taken + bytes.length := by
  fun_induction utf8Tail taken value needed bytes with
  | case1 => simp [Utf8Front.taken]
  | case2 => simp [Utf8Front.taken]
  | case3 taken value needed byte rest _ ih =>
    rw [List.length_cons]
    omega
  | case4 => simp [Utf8Front.taken]

/-- A step takes no more bytes than there are. -/
theorem taken_utf8Front_le (first : UInt8) (rest : List UInt8) : (utf8Front first rest).taken.2 ≤ rest.length + 1 := by
  fun_cases utf8Front first rest with
  | case1 => simp [Utf8Front.taken]
  | case2 => simp [Utf8Front.taken]
  | case3 => simp [Utf8Front.taken]
  | case4 width _ _ second rest _ lead =>
    have htail := taken_utf8Tail_le 2 (lead * 0x40 + (second.toNat - 0x80)) (width - 2) rest
    rw [List.length_cons]
    omega
  | case5 => simp [Utf8Front.taken]

/-! ### Where bytes can be cut -/

section Cut

variable {next : UInt8} (hnext : isContinuation next = false)
include hnext

theorem taken_utf8Tail_append (taken value needed : Nat) (bytes more : List UInt8) :
    (utf8Tail taken value needed (bytes ++ next :: more)).taken = (utf8Tail taken value needed bytes).taken := by
  fun_induction utf8Tail taken value needed bytes with
  | case1 => simp [utf8Tail]
  | case2 => simp [utf8Tail, hnext, Utf8Front.taken]
  | case3 taken value needed byte rest hbyte ih => rw [List.cons_append, utf8Tail_cons hbyte, ih]
  | case4 taken value needed byte rest hbyte => rw [List.cons_append, utf8Tail, if_neg hbyte]

/-- A byte that continues no character stops a step just where the end of the bytes would, if for another reason. -/
theorem taken_utf8Front_append (first : UInt8) (bytes more : List UInt8) :
    (utf8Front first (bytes ++ next :: more)).taken = (utf8Front first bytes).taken := by
  have hfollow : mayFollow first next = false := by simp [mayFollow, hnext]
  simp only [utf8Front]
  split
  · rfl
  · split
    · rfl
    · cases bytes with
      | nil => simp [hfollow, Utf8Front.taken]
      | cons second rest =>
        simp only [List.cons_append]
        split
        · exact taken_utf8Tail_append hnext _ _ _ rest more
        · rfl

theorem lenientAfter_append {skipped : Nat} {bytes : List UInt8} (hskipped : skipped ≤ bytes.length)
    (more : List UInt8) :
    lenientAfter skipped (bytes ++ next :: more) = lenientAfter skipped bytes ++ lenientAfter 0 (next :: more) := by
  induction bytes generalizing skipped with
  | nil =>
    obtain rfl : skipped = 0 := Nat.le_zero.mp hskipped
    rfl
  | cons first rest ih =>
    cases skipped with
    | succ skipped => exact ih (Nat.le_of_succ_le_succ hskipped)
    | zero =>
      have hlength := taken_utf8Front_le first rest
      rw [List.cons_append, lenientAfter_cons, lenientAfter_cons, taken_utf8Front_append hnext, ih (by omega),
        List.cons_append]

theorem decodeLenient_append (bytes more : List UInt8) :
    decodeLenient (bytes ++ next :: more) = decodeLenient bytes ++ decodeLenient (next :: more) :=
  lenientAfter_append hnext (Nat.zero_le _) more

end Cut

/-! ### Line feeds -/

theorem decodeLenient_lineFeed (bytes : List UInt8) : decodeLenient (0x0a :: bytes) = '\n' :: decodeLenient bytes := by
  rw [decodeLenient, lenientAfter_cons]
  rfl

theorem exists_code_of_utf8Tail {taken value needed length : Nat} {bytes : List UInt8} {c : Char}
    (h : utf8Tail taken value needed bytes = .char c length) : ∃ code, c = Char.ofNat code ∧ value ≤ code := by
  fun_induction utf8Tail taken value needed bytes with
  | case1 taken value => exact ⟨value, (Utf8Front.char.inj h).1.symm, Nat.le_refl value⟩
  | case2 => cases h
  | case3 taken value needed byte rest _ ih =>
    obtain ⟨code, hcode, hle⟩ := ih h
    exact ⟨code, hcode, by omega⟩
  | case4 => cases h

/-- The first two bytes of a character that takes more than one byte already spell more than a control character. -/
theorem value_of_mayFollow {first second : UInt8} (hwidth : 2 ≤ utf8Width first)
    (hfollow : mayFollow first second = true) :
    0x10 ≤ first.toNat % Nat.pow 2 (7 - utf8Width first) * 0x40 + (second.toNat - 0x80) := by
  rw [mayFollow_iff] at hfollow
  rcases utf8Width_cases first with ⟨_, hfirst⟩ | ⟨_, hfirst⟩ | ⟨_, hfirst⟩ | ⟨_, hfirst⟩ | ⟨_, hfirst⟩
  · omega
  · omega
  · simp only [hfirst, Nat.reduceSub, Nat.pow_eq, Nat.reducePow]
    omega
  · simp only [hfirst, Nat.reduceSub, Nat.pow_eq, Nat.reducePow]
    omega
  · simp only [hfirst, Nat.reduceSub, Nat.pow_eq, Nat.reducePow]
    omega

theorem eq_of_ofNat_eq_lineFeed {code : Nat} (h : Char.ofNat code = '\n') : code = 0x0a := by
  by_cases hvalid : code.isValidChar
  · have hcode := congrArg Char.toNat h
    rw [Char.ofNat, dif_pos hvalid] at hcode
    exact hcode
  · rw [Char.ofNat, dif_neg hvalid] at h
    cases congrArg Char.toNat h

theorem taken_utf8Tail_ne_lineFeed {value : Nat} (h : 0x10 ≤ value) (taken needed : Nat) (bytes : List UInt8) :
    (utf8Tail taken value needed bytes).taken.1 ≠ '\n' := by
  cases htail : utf8Tail taken value needed bytes with
  | bad fault length => exact (by decide : '\ufffd' ≠ '\n')
  | char c length =>
    obtain ⟨code, rfl, hle⟩ := exists_code_of_utf8Tail htail
    intro hfeed
    have := eq_of_ofNat_eq_lineFeed hfeed
    omega

/-- Nothing but a line feed is read as one. -/
theorem taken_utf8Front_ne_lineFeed {first : UInt8} (hfirst : first ≠ 0x0a) (rest : List UInt8) :
    (utf8Front first rest).taken.1 ≠ '\n' := by
  fun_cases utf8Front first rest with
  | case1 => decide
  | case2 =>
    intro hfeed
    exact hfirst (UInt8.toNat_inj.mp (eq_of_ofNat_eq_lineFeed hfeed))
  | case3 => decide
  | case4 width hsome hmore second rest hfollow lead =>
    exact taken_utf8Tail_ne_lineFeed (value_of_mayFollow (by omega) hfollow) _ _ rest
  | case5 => decide

theorem lineFeed_not_mem_lenientAfter {bytes : List UInt8} (h : 0x0a ∉ bytes) (skipped : Nat) :
    '\n' ∉ lenientAfter skipped bytes := by
  induction bytes generalizing skipped with
  | nil => simp [lenientAfter]
  | cons first rest ih =>
    obtain ⟨hfirst, hrest⟩ := List.ne_and_not_mem_of_not_mem_cons h
    cases skipped with
    | succ skipped => exact ih hrest skipped
    | zero =>
      rw [lenientAfter_cons]
      have hhead := taken_utf8Front_ne_lineFeed (Ne.symm hfirst) rest
      exact List.not_mem_cons_of_ne_of_not_mem (Ne.symm hhead) (ih hrest _)

theorem lineFeed_not_mem_decodeLenient {bytes : List UInt8} (h : 0x0a ∉ bytes) : '\n' ∉ decodeLenient bytes :=
  lineFeed_not_mem_lenientAfter h 0

/-! ### Lines -/

section Split

variable {α : Type} [DecidableEq α] {x : α} {part : List α} (hpart : x ∉ part)
include hpart

theorem splitAfter_append_cons (rest : List α) :
    splitAfter (· == x) (part ++ x :: rest) = (part ++ [x]) :: splitAfter (· == x) rest := by
  induction part with
  | nil => simp [splitAfter]
  | cons y part ih =>
    obtain ⟨hy, hrest⟩ := List.ne_and_not_mem_of_not_mem_cons hpart
    rw [List.cons_append, splitAfter, ih hrest, if_neg (by simpa using Ne.symm hy), List.cons_append]

theorem splitAfter_of_not_mem : splitAfter (· == x) part = if part = [] then [] else [part] := by
  induction part with
  | nil => rfl
  | cons y part ih =>
    obtain ⟨hy, hrest⟩ := List.ne_and_not_mem_of_not_mem_cons hpart
    rw [splitAfter, ih hrest, if_neg (by simpa using Ne.symm hy)]
    cases part <;> rfl

end Split

theorem decodeLenient_eq_nil_iff {bytes : List UInt8} : decodeLenient bytes = [] ↔ bytes = [] := by
  cases bytes with
  | nil => simp [decodeLenient, lenientAfter]
  | cons first rest => simp [decodeLenient, lenientAfter_cons]

/-- Bytes fall into the same lines before and after they are read. The induction takes one line after the other. -/
theorem map_decodeLenient_splitAfter (bytes : List UInt8) :
    (splitAfter (· == 0x0a) bytes).map decodeLenient = lines (decodeLenient bytes) := by
  induction hlength : bytes.length using Nat.strongRecOn generalizing bytes with
  | ind length ih =>
    by_cases hfeed : 0x0a ∈ bytes
    · obtain ⟨line, rest, rfl, hline⟩ := List.eq_append_cons_of_mem hfeed
      have hrest : rest.length < length := by
        rw [← hlength, List.length_append, List.length_cons]
        omega
      have hread : ∀ more, decodeLenient (line ++ 0x0a :: more) = decodeLenient line ++ '\n' :: decodeLenient more := by
        intro more
        rw [decodeLenient_append rfl, decodeLenient_lineFeed]
      rw [splitAfter_append_cons hline, List.map_cons, ih _ hrest rest rfl, hread, hread, lines, lines,
        splitAfter_append_cons (lineFeed_not_mem_decodeLenient hline)]
      rfl
    · rw [lines, splitAfter_of_not_mem hfeed, splitAfter_of_not_mem (lineFeed_not_mem_decodeLenient hfeed)]
      simp only [decodeLenient_eq_nil_iff]
      split <;> rfl

/-! ### The bytes of a text -/

theorem toList_loop (bytes : ByteArray) (i : Nat) (taken : List UInt8) :
    ByteArray.toList.loop bytes i taken = taken.reverse ++ bytes.data.toList.drop i := by
  induction i, taken using ByteArray.toList.loop.induct bytes with
  | case1 i taken hlt ih =>
    have hnext : bytes.data.toList.drop i = bytes.data[i] :: bytes.data.toList.drop (i + 1) := by
      rw [List.drop_eq_getElem_cons (by simpa using hlt)]
      rfl
    rw [ByteArray.toList.loop, if_pos hlt, ih, hnext]
    simp [ByteArray.get!, hlt]
  | case2 i taken hge =>
    have hnone : bytes.data.toList.drop i = [] := List.drop_of_length_le (by simpa using hge)
    rw [ByteArray.toList.loop, if_neg hge, hnone, List.append_nil]

theorem toList_eq_data (bytes : ByteArray) : bytes.toList = bytes.data.toList := by
  rw [ByteArray.toList, toList_loop]
  rfl

theorem toList_toUTF8 (text : String) : text.toUTF8.toList = text.toList.flatMap String.utf8EncodeChar := by
  have hbytes : text.toUTF8 = (text.toList.flatMap String.utf8EncodeChar).toByteArray :=
    (congrArg String.toByteArray (String.ofList_toList (s := text))).symm.trans String.toByteArray_ofList
  rw [hbytes, toList_eq_data, List.toList_data_toByteArray]

theorem toNat_ofNat_eq {n m : Nat} (h : n = m) (hm : m < 0x100) : (UInt8.ofNat n).toNat = m := by
  rw [UInt8.toNat_ofNat', h, Nat.mod_eq_of_lt hm]

section Spelled

variable {code : Nat} {first second third fourth : UInt8} (more : List UInt8)

theorem utf8Front_two (hlow : 0x80 ≤ code) (hhigh : code < 0x800) (hfirst : first.toNat = code / 0x40 + 0xc0)
    (hsecond : second.toNat = code % 0x40 + 0x80) :
    utf8Front first (second :: more) = .char (Char.ofNat code) 2 := by
  have hwidth : utf8Width first = 2 := by
    have := utf8Width_cases first
    omega
  have hcode : first.toNat % 0x20 * 0x40 + (second.toNat - 0x80) = code := by omega
  rw [utf8Front_of_mayFollow (by omega) (mayFollow_iff.mpr (by omega)), hwidth, utf8Tail]
  exact congrArg (fun value => Utf8Front.char (Char.ofNat value) 2) hcode

theorem utf8Front_three (hlow : 0x800 ≤ code) (hhigh : code < 0x10000) (hvalid : code.isValidChar)
    (hfirst : first.toNat = code / 0x1000 + 0xe0) (hsecond : second.toNat = code / 0x40 % 0x40 + 0x80)
    (hthird : third.toNat = code % 0x40 + 0x80) :
    utf8Front first (second :: third :: more) = .char (Char.ofNat code) 3 := by
  have hwidth : utf8Width first = 3 := by
    have := utf8Width_cases first
    omega
  have hcode : (first.toNat % 0x10 * 0x40 + (second.toNat - 0x80)) * 0x40 + (third.toNat - 0x80) = code := by
    omega
  rw [Nat.isValidChar] at hvalid
  rw [utf8Front_of_mayFollow (by omega) (mayFollow_iff.mpr (by omega)), hwidth,
    utf8Tail_cons (isContinuation_iff.mpr (by omega)), utf8Tail]
  exact congrArg (fun value => Utf8Front.char (Char.ofNat value) 3) hcode

theorem utf8Front_four (hlow : 0x10000 ≤ code) (hhigh : code < 0x110000)
    (hfirst : first.toNat = code / 0x40000 + 0xf0) (hsecond : second.toNat = code / 0x1000 % 0x40 + 0x80)
    (hthird : third.toNat = code / 0x40 % 0x40 + 0x80) (hfourth : fourth.toNat = code % 0x40 + 0x80) :
    utf8Front first (second :: third :: fourth :: more) = .char (Char.ofNat code) 4 := by
  have hwidth : utf8Width first = 4 := by
    have := utf8Width_cases first
    omega
  have hcode : ((first.toNat % 0x08 * 0x40 + (second.toNat - 0x80)) * 0x40 + (third.toNat - 0x80)) * 0x40 +
      (fourth.toNat - 0x80) = code := by
    omega
  rw [utf8Front_of_mayFollow (by omega) (mayFollow_iff.mpr (by omega)), hwidth,
    utf8Tail_cons (isContinuation_iff.mpr (by omega)), utf8Tail_cons (isContinuation_iff.mpr (by omega)), utf8Tail]
  exact congrArg (fun value => Utf8Front.char (Char.ofNat value) 4) hcode

end Spelled

/-- The bytes of a character are read as the character, whatever comes after them. -/
theorem lenientAfter_encodeChar (c : Char) (more : List UInt8) :
    lenientAfter 0 (String.utf8EncodeChar c ++ more) = c :: lenientAfter 0 more := by
  have hcode : Char.ofNat c.val.toNat = c := Char.ofNat_toNat c
  have hvalid : c.val.toNat.isValidChar := c.valid
  have hhigh : c.val.toNat < 0x110000 := by
    rw [Nat.isValidChar] at hvalid
    omega
  rw [String.utf8EncodeChar]
  generalize c.val.toNat = code at hcode hvalid hhigh ⊢
  -- one case for each number of bytes
  split_ifs with hone htwo hthree
  · have hfirst : (UInt8.ofNat code).toNat = code := toNat_ofNat_eq rfl (by omega)
    have hwidth : utf8Width (UInt8.ofNat code) = 1 := by
      have := utf8Width_cases (UInt8.ofNat code)
      omega
    have hfront : utf8Front (UInt8.ofNat code) more = .char c 1 := by simp [utf8Front, hwidth, hfirst, hcode]
    rw [List.singleton_append, lenientAfter_cons, hfront]
    rfl
  · have hfirst : (UInt8.ofNat (code / 64 % 32 + 192)).toNat = code / 0x40 + 0xc0 :=
      toNat_ofNat_eq (by omega) (by omega)
    have hsecond : (UInt8.ofNat (code % 64 + 128)).toNat = code % 0x40 + 0x80 :=
      toNat_ofNat_eq (by omega) (by omega)
    rw [List.cons_append, List.singleton_append, lenientAfter_cons,
      utf8Front_two more (by omega) (by omega) hfirst hsecond, hcode]
    rfl
  · have hfirst : (UInt8.ofNat (code / 4096 % 16 + 224)).toNat = code / 0x1000 + 0xe0 :=
      toNat_ofNat_eq (by omega) (by omega)
    have hsecond : (UInt8.ofNat (code / 64 % 64 + 128)).toNat = code / 0x40 % 0x40 + 0x80 :=
      toNat_ofNat_eq (by omega) (by omega)
    have hthird : (UInt8.ofNat (code % 64 + 128)).toNat = code % 0x40 + 0x80 :=
      toNat_ofNat_eq (by omega) (by omega)
    rw [List.cons_append, List.cons_append, List.singleton_append, lenientAfter_cons,
      utf8Front_three more (by omega) (by omega) hvalid hfirst hsecond hthird, hcode]
    rfl
  · have hfirst : (UInt8.ofNat (code / 262144 % 8 + 240)).toNat = code / 0x40000 + 0xf0 :=
      toNat_ofNat_eq (by omega) (by omega)
    have hsecond : (UInt8.ofNat (code / 4096 % 64 + 128)).toNat = code / 0x1000 % 0x40 + 0x80 :=
      toNat_ofNat_eq (by omega) (by omega)
    have hthird : (UInt8.ofNat (code / 64 % 64 + 128)).toNat = code / 0x40 % 0x40 + 0x80 :=
      toNat_ofNat_eq (by omega) (by omega)
    have hfourth : (UInt8.ofNat (code % 64 + 128)).toNat = code % 0x40 + 0x80 :=
      toNat_ofNat_eq (by omega) (by omega)
    rw [List.cons_append, List.cons_append, List.cons_append, List.singleton_append, lenientAfter_cons,
      utf8Front_four more (by omega) hhigh hfirst hsecond hthird hfourth, hcode]
    rfl

theorem decodeLenient_toUTF8 (text : String) : decodeLenient text.toUTF8.toList = text.toList := by
  rw [toList_toUTF8, decodeLenient]
  induction text.toList with
  | nil => rfl
  | cons c rest ih => rw [List.flatMap_cons, lenientAfter_encodeChar, ih]

end ServiceMap.Text
