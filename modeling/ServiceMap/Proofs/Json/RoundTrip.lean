import ServiceMap.Proofs.Json.Text
import ServiceMap.Proofs.Number.Decimal

/-!
# Documents are read as they are written

The compact form of a document without doubles, in which no object has two fields of one name and no integer is too long
to be written, is read as that document. An integer ends where no character follows that could continue it, which is
where the text ends, or at a comma or a closing bracket or brace.
-/

namespace ServiceMap.Json

/-! ### Numbers -/

/-- What is left does not continue a number. -/
def EndsNumber (left : List Char) : Prop :=
  ∀ c ∈ left.head?, c.isDigit = false ∧ c ≠ '.' ∧ c ≠ 'e' ∧ c ≠ 'E'

theorem endsNumber_nil : EndsNumber [] := by simp [EndsNumber]

theorem endsNumber_cons {c : Char} (h : c = ',' ∨ c = ']' ∨ c = '}') (left : List Char) : EndsNumber (c :: left) := by
  rintro c' hc'
  obtain rfl := Option.some.inj hc'
  rcases h with rfl | rfl | rfl <;> decide

theorem takeFraction_of_endsNumber {left : List Char} (h : EndsNumber left) : takeFraction left = ([], left) := by
  unfold takeFraction
  split
  · exact absurd rfl (h '.' rfl).2.1
  · rfl

theorem takeExponent_of_endsNumber {left : List Char} (h : EndsNumber left) : takeExponent left = (none, left) := by
  cases left with
  | nil => rfl
  | cons mark rest =>
    obtain ⟨-, -, hsmall, hlarge⟩ := h mark rfl
    simp [takeExponent, hsmall, hlarge]

theorem takeWhile_digits {digits left : List Char} (hdigits : ∀ c ∈ digits, c.isDigit = true) (h : EndsNumber left) :
    (digits ++ left).takeWhile Char.isDigit = digits ∧ (digits ++ left).dropWhile Char.isDigit = left := by
  have hleft : left.takeWhile Char.isDigit = [] ∧ left.dropWhile Char.isDigit = left := by
    cases left with
    | nil => exact ⟨rfl, rfl⟩
    | cons c rest => simp [(h c rfl).1]
  rw [List.takeWhile_append_of_pos hdigits, List.dropWhile_append_of_pos hdigits, hleft.1, hleft.2, List.append_nil]
  exact ⟨rfl, rfl⟩

theorem takeWhole_append {digits left : List Char} (hdigits : ∀ c ∈ digits, c.isDigit = true)
    (hzero : (digits ++ left).head? ≠ some '0') (h : EndsNumber left) :
    takeWhole (digits ++ left) = (digits, left) := by
  obtain ⟨htake, hdrop⟩ := takeWhile_digits hdigits h
  unfold takeWhole
  split
  · rename_i heq
    rw [heq] at hzero
    exact absurd rfl hzero
  · rw [htake, hdrop]

/-- The digits of a number are taken as a whole: a zero in front is all there is. -/
theorem takeWhole_digits (n : Nat) {left : List Char} (h : EndsNumber left) :
    takeWhole (Decimal.digits n ++ left) = (Decimal.digits n, left) := by
  obtain rfl | hpos := Nat.eq_zero_or_pos n
  · rfl
  · apply takeWhole_append (fun c hc => Decimal.isDigit_of_mem_digits hc) _ h
    rw [Decimal.head?_digits_append]
    exact Decimal.head?_digits hpos

/-- No digit is a letter, a quote or a bracket. -/
theorem ne_of_isDigit {c d : Char} (hc : c.isDigit = true) (hd : d.isDigit = false) : c ≠ d := by
  rintro rfl
  exact absurd hc (by simp [hd])

theorem takeSign_of_isDigit {c : Char} (hc : c.isDigit = true) (left : List Char) :
    takeSign (c :: left) = (false, c :: left) := by
  unfold takeSign
  split
  · rename_i heq
    exact absurd (List.head_eq_of_cons_eq heq) (ne_of_isDigit hc rfl)
  · rfl

theorem takeSign_chars (n : Int) (left : List Char) :
    takeSign (Decimal.chars n ++ left) = (decide (n < 0), Decimal.digits n.natAbs ++ left) := by
  by_cases hn : n < 0
  · rw [Decimal.chars, if_pos hn, decide_eq_true hn]
    rfl
  · obtain ⟨c, digits, hdigits⟩ := List.exists_cons_of_ne_nil (Decimal.digits_ne_nil n.natAbs)
    have hc : c.isDigit = true := Decimal.isDigit_of_mem_digits (hdigits ▸ List.mem_cons_self)
    rw [Decimal.chars, if_neg hn, decide_eq_false hn, hdigits]
    exact takeSign_of_isDigit hc _

theorem readNumber_chars {n : Int} (hlong : Decimal.tooLong n = false) {left : List Char} (h : EndsNumber left) :
    readNumber (Decimal.chars n ++ left) = .ok (.int n, left) := by
  have hempty : (Decimal.digits n.natAbs).isEmpty = false := by simp [Decimal.digits_ne_nil]
  have hlength := Nat.not_lt.mpr (Decimal.tooLong_eq_false_iff.mp hlong)
  simp only [readNumber, takeSign_chars, takeWhole_digits _ h, hempty, Bool.false_eq_true, if_false,
    takeFraction_of_endsNumber h, takeExponent_of_endsNumber h, gt_iff_lt, hlength, Decimal.ofSigned_digits]

/-- An integer begins with a digit, perhaps behind a minus sign. -/
theorem chars_append (n : Int) (left : List Char) : ∃ c rest, c.isDigit = true ∧
    (Decimal.chars n ++ left = c :: rest ∨ Decimal.chars n ++ left = '-' :: c :: rest) := by
  obtain ⟨c, digits, hdigits⟩ := List.exists_cons_of_ne_nil (Decimal.digits_ne_nil n.natAbs)
  have hc : c.isDigit = true := Decimal.isDigit_of_mem_digits (hdigits ▸ List.mem_cons_self)
  refine ⟨c, digits ++ left, hc, ?_⟩
  rw [Decimal.chars, hdigits]
  split
  · exact .inr rfl
  · exact .inl rfl

/-- No word begins like a number. -/
theorem readScalar_of_digit {c : Char} (hc : c.isDigit = true) {left rest : List Char}
    (h : left = c :: rest ∨ left = '-' :: c :: rest) : readScalar left = readNumber left := by
  have hne : ∀ d : Char, d.isDigit = false → (d == c) = false :=
    fun d hd => by simpa using (ne_of_isDigit hc hd).symm
  have hword : ∀ word ∈ words, word.1.isPrefixOf? left = none := by
    rcases h with rfl | rfl
    · simp [words, List.isPrefixOf?, hne]
    · simp [words, List.isPrefixOf?, hne]
  rw [readScalar, List.findSome?_eq_none_iff.mpr]
  intro word hmem
  show (word.1.isPrefixOf? left).map (word.2, ·) = none
  rw [hword word hmem, Option.map_none]

theorem readScalar_chars {n : Int} (hlong : Decimal.tooLong n = false) {left : List Char} (h : EndsNumber left) :
    readScalar (Decimal.chars n ++ left) = .ok (.int n, left) := by
  obtain ⟨c, rest, hc, hform⟩ := chars_append n left
  rw [readScalar_of_digit hc hform]
  exact readNumber_chars hlong h

/-! ### Values -/

mutual

/-- The compact form of the document says all about it. -/
def IsExact : Json → Prop
  | .int n => Decimal.tooLong n = false
  | .float _ => False
  | .arr items => ItemsExact items
  | .obj fields => (fields.map (·.1)).Nodup ∧ FieldsExact fields
  | _ => True

def ItemsExact : List Json → Prop
  | [] => True
  | item :: items => IsExact item ∧ ItemsExact items

def FieldsExact : List (String × Json) → Prop
  | [] => True
  | (_, v) :: fields => IsExact v ∧ FieldsExact fields

end

theorem itemsExact_iff {items : List Json} : ItemsExact items ↔ ∀ item ∈ items, item.IsExact := by
  induction items with
  | nil => simp [ItemsExact]
  | cons item items ih => rw [ItemsExact, ih, List.forall_mem_cons]

theorem fieldsExact_iff {fields : List (String × Json)} : FieldsExact fields ↔ ∀ field ∈ fields, field.2.IsExact := by
  induction fields with
  | nil => simp [FieldsExact]
  | cons field fields ih => rw [FieldsExact, ih, List.forall_mem_cons]

/-- A character with which a value may begin: no blank, no closing bracket, no byte order mark. -/
def OpensValue (c : Char) : Prop := isSpace c = false ∧ c ≠ ']' ∧ c ≠ '\ufeff'

instance (c : Char) : Decidable (OpensValue c) := inferInstanceAs (Decidable (_ ∧ _))

theorem opensValue_of_isDigit {c : Char} (hc : c.isDigit = true) : OpensValue c := by
  refine ⟨?_, ne_of_isDigit hc rfl, ne_of_isDigit hc rfl⟩
  simp [isSpace, ne_of_isDigit hc (d := ' ') rfl, ne_of_isDigit hc (d := '\t') rfl,
    ne_of_isDigit hc (d := '\n') rfl, ne_of_isDigit hc (d := '\r') rfl]

theorem compact_cons {v : Json} (h : v.IsExact) : ∃ c rest, v.compact = c :: rest ∧ OpensValue c := by
  cases v with
  | null => exact ⟨_, _, rfl, by decide⟩
  | bool b => cases b <;> exact ⟨_, _, rfl, by decide⟩
  | int n =>
    obtain ⟨c, rest, hc, hform⟩ := chars_append n []
    rw [List.append_nil] at hform
    rcases hform with hform | hform
    · exact ⟨c, rest, hform, opensValue_of_isDigit hc⟩
    · exact ⟨'-', c :: rest, hform, by decide⟩
  | float x => exact h.elim
  | str s => exact ⟨_, _, rfl, by decide⟩
  | arr items => exact ⟨_, _, rfl, by decide⟩
  | obj fields => exact ⟨_, _, rfl, by decide⟩

theorem skipSpace_cons {c : Char} (h : isSpace c = false) (left : List Char) : skipSpace (c :: left) = c :: left := by
  simp [skipSpace, h]

theorem separated_cons_cons (separator first second : List Char) (parts : List (List Char)) :
    separated separator (first :: second :: parts) = first ++ (separator ++ separated separator (second :: parts)) :=
  rfl

theorem separated_singleton (separator part : List Char) : separated separator [part] = part := by
  simp [separated]

section Steps

variable {parts : Nat} {left rest : List Char}

theorem readValue_scalar {c : Char} (hquote : c ≠ '"') (hbrace : c ≠ '\x7b') (hbracket : c ≠ '[') :
    readValue (parts + 1) (c :: left) = readScalar (c :: left) := by
  rw [readValue]
  all_goals
    intro rest h
    have hc := List.head_eq_of_cons_eq h
    contradiction

theorem readValue_text (text : String) :
    readValue (parts + 1) (compactText text ++ left) = .ok (.str text, left) := by
  rw [compactText, List.append_assoc, List.cons_append, List.singleton_append, readValue]
  simp only [readText_flatMap, Functor.map, Except.map, String.ofList_toList]

theorem readValue_emptyArray : readValue (parts + 1) ('[' :: ']' :: left) = .ok (.arr [], left) := by
  rw [readValue]
  rfl

theorem readValue_array {items : List Json} {c : Char} (hc : OpensValue c)
    (h : readItems parts (c :: left) = .ok (items, rest)) :
    readValue (parts + 1) ('[' :: c :: left) = .ok (.arr items, rest) := by
  rw [readValue]
  simp only [skipSpace_cons hc.1]
  split
  · rename_i hclose
    exact absurd (List.head_eq_of_cons_eq hclose) hc.2.1
  · rw [h]
    rfl

theorem readItems_last {item : Json} (h : readValue parts left = .ok (item, ']' :: rest)) :
    readItems (parts + 1) left = .ok ([item], rest) := by
  rw [readItems, h]
  rfl

theorem readItems_cons {item : Json} {items : List Json} {c : Char} {more : List Char} (hc : OpensValue c)
    (h : readValue parts left = .ok (item, ',' :: c :: more)) (h' : readItems parts (c :: more) = .ok (items, rest)) :
    readItems (parts + 1) left = .ok (item :: items, rest) := by
  rw [readItems, h]
  have hcomma : skipSpace (',' :: c :: more) = ',' :: c :: more := skipSpace_cons rfl _
  simp only [bind, Except.bind, hcomma, skipSpace_cons hc.1, h']
  rfl

theorem readValue_emptyObject : readValue (parts + 1) ('\x7b' :: '}' :: left) = .ok (.obj [], left) := by
  rw [readValue]
  rfl

theorem readValue_object {fields : List (String × Json)} (hnames : (fields.map (·.1)).Nodup)
    (h : readFields parts ('"' :: left) = .ok (fields, rest)) :
    readValue (parts + 1) ('\x7b' :: '"' :: left) = .ok (.obj fields, rest) := by
  have hquote : skipSpace ('"' :: left) = '"' :: left := skipSpace_cons rfl _
  rw [readValue]
  simp only [hquote]
  split
  · rename_i hclose
    exact absurd (List.head_eq_of_cons_eq hclose) (by decide)
  · simp only [h, Functor.map, Except.map, Table.entries_ofList hnames]

theorem readFields_last {name : String} {v : Json} {c : Char} (hc : OpensValue c)
    (h : readValue parts (c :: left) = .ok (v, '}' :: rest)) :
    readFields (parts + 1) (compactText name ++ ':' :: c :: left) = .ok ([(name, v)], rest) := by
  have hcolon : skipSpace (':' :: c :: left) = ':' :: c :: left := skipSpace_cons rfl _
  have hbrace : skipSpace ('}' :: rest) = '}' :: rest := skipSpace_cons rfl _
  rw [compactText, List.append_assoc, List.cons_append, List.singleton_append, readFields]
  simp only [readText_flatMap, bind, Except.bind, hcolon, skipSpace_cons hc.1, h, hbrace, String.ofList_toList]
  rfl

theorem readFields_cons {name : String} {v : Json} {fields : List (String × Json)} {c : Char} {more : List Char}
    (hc : OpensValue c) (h : readValue parts (c :: left) = .ok (v, ',' :: '"' :: more))
    (h' : readFields parts ('"' :: more) = .ok (fields, rest)) :
    readFields (parts + 1) (compactText name ++ ':' :: c :: left) = .ok ((name, v) :: fields, rest) := by
  have hcolon : skipSpace (':' :: c :: left) = ':' :: c :: left := skipSpace_cons rfl _
  have hcomma : skipSpace (',' :: '"' :: more) = ',' :: '"' :: more := skipSpace_cons rfl _
  have hquote : skipSpace ('"' :: more) = '"' :: more := skipSpace_cons rfl _
  rw [compactText, List.append_assoc, List.cons_append, List.singleton_append, readFields]
  simp only [readText_flatMap, bind, Except.bind, hcolon, skipSpace_cons hc.1, h, hcomma, hquote, h',
    String.ofList_toList]
  rfl

end Steps

/-! ### Documents -/

theorem separated_items_cons {item : Json} (h : item.IsExact) (items : List Json) :
    ∃ c rest, separated [','] (compactItems (item :: items)) = c :: rest ∧ OpensValue c := by
  obtain ⟨c, rest, hitem, hc⟩ := compact_cons h
  cases items with
  | nil => exact ⟨c, rest, by rw [compactItems, compactItems, separated_singleton, hitem], hc⟩
  | cons next items =>
    refine ⟨c, rest ++ ',' :: separated [','] (compactItems (next :: items)), ?_, hc⟩
    rw [compactItems, compactItems, separated_cons_cons, hitem]
    rfl

theorem separated_fields_cons (field : String × Json) (fields : List (String × Json)) :
    ∃ rest, separated [','] (compactFields (field :: fields)) = '"' :: rest := by
  cases fields with
  | nil => exact ⟨_, separated_singleton _ _⟩
  | cons next fields => exact ⟨_, separated_cons_cons _ _ _ _⟩

mutual

/-- The compact form of a value is taken as the value, if as many parts may be opened as the form can have. -/
theorem readValue_compact : ∀ (v : Json) (parts : Nat) (left : List Char), v.IsExact → EndsNumber left →
    2 * v.compact.length ≤ parts + 1 → readValue (parts + 1) (v.compact ++ left) = .ok (v, left)
  | .null, _, _, _, _, _ => (readValue_scalar (by decide) (by decide) (by decide)).trans rfl
  | .bool true, _, _, _, _, _ => (readValue_scalar (by decide) (by decide) (by decide)).trans rfl
  | .bool false, _, _, _, _, _ => (readValue_scalar (by decide) (by decide) (by decide)).trans rfl
  | .int n, parts, left, hexact, hends, _ => by
    have hscalar := readScalar_chars hexact hends
    obtain ⟨c, rest, hc, hform⟩ := chars_append n left
    rw [compact]
    rcases hform with hform | hform
    · rw [hform] at hscalar ⊢
      rw [readValue_scalar (ne_of_isDigit hc rfl) (ne_of_isDigit hc rfl) (ne_of_isDigit hc rfl), hscalar]
    · rw [hform] at hscalar ⊢
      rw [readValue_scalar (by decide) (by decide) (by decide), hscalar]
  | .float _, _, _, hexact, _, _ => hexact.elim
  | .str s, _, _, _, _, _ => readValue_text s
  | .arr [], _, _, _, _, _ => readValue_emptyArray
  | .arr (item :: items), parts, left, hexact, _, hparts => by
    -- The bracket takes one of the parts that may be opened, and two characters are gone with the closing one.
    obtain ⟨c, rest, hopen, hc⟩ := separated_items_cons hexact.1 items
    rw [compact, List.length_append, List.length_cons, List.length_singleton] at hparts
    obtain ⟨fewer, rfl⟩ : ∃ fewer, parts = fewer + 1 := ⟨parts - 1, by omega⟩
    have hread := readItems_compact (item :: items) (List.cons_ne_nil _ _) fewer left hexact (by omega)
    rw [compact, List.append_assoc, List.cons_append]
    rw [hopen] at hread ⊢
    exact readValue_array hc hread
  | .obj [], _, _, _, _, _ => readValue_emptyObject
  | .obj (field :: fields), parts, left, hexact, _, hparts => by
    obtain ⟨rest, hopen⟩ := separated_fields_cons field fields
    rw [compact, List.length_append, List.length_cons, List.length_singleton] at hparts
    obtain ⟨fewer, rfl⟩ : ∃ fewer, parts = fewer + 1 := ⟨parts - 1, by omega⟩
    have hread := readFields_compact (field :: fields) (List.cons_ne_nil _ _) fewer left hexact.2 (by omega)
    rw [compact, List.append_assoc, List.cons_append]
    rw [hopen] at hread ⊢
    exact readValue_object hexact.1 hread

theorem readItems_compact : ∀ (items : List Json), items ≠ [] → ∀ (parts : Nat) (left : List Char), ItemsExact items →
    2 * (separated [','] (compactItems items)).length ≤ parts →
    readItems (parts + 1) (separated [','] (compactItems items) ++ ']' :: left) = .ok (items, left)
  | [], hsome, _, _, _, _ => absurd rfl hsome
  | [item], _, parts, left, hexact, hparts => by
    obtain ⟨c, rest, hopen, hc⟩ := compact_cons hexact.1
    have hlength : 0 < item.compact.length := by simp [hopen]
    rw [compactItems, compactItems, separated_singleton] at hparts ⊢
    obtain ⟨fewer, rfl⟩ : ∃ fewer, parts = fewer + 1 := ⟨parts - 1, by omega⟩
    exact readItems_last (readValue_compact item fewer _ hexact.1 (endsNumber_cons (by simp) left) hparts)
  | item :: next :: items, _, parts, left, hexact, hparts => by
    obtain ⟨c, rest, hopen, hc⟩ := separated_items_cons hexact.2.1 items
    have hform : separated [','] (compactItems (item :: next :: items)) =
        item.compact ++ ',' :: separated [','] (compactItems (next :: items)) := separated_cons_cons _ _ _ _
    rw [hform, List.length_append, List.length_cons] at hparts
    obtain ⟨fewer, rfl⟩ : ∃ fewer, parts = fewer + 1 := ⟨parts - 1, by omega⟩
    have hitem := readValue_compact item fewer
      (',' :: (separated [','] (compactItems (next :: items)) ++ ']' :: left)) hexact.1
      (endsNumber_cons (by simp) _) (by omega)
    have hrest := readItems_compact (next :: items) (List.cons_ne_nil _ _) fewer left hexact.2 (by omega)
    rw [hform, List.append_assoc, List.cons_append]
    rw [hopen] at hitem hrest ⊢
    exact readItems_cons hc hitem hrest

theorem readFields_compact : ∀ (fields : List (String × Json)), fields ≠ [] → ∀ (parts : Nat) (left : List Char),
    FieldsExact fields → 2 * (separated [','] (compactFields fields)).length ≤ parts →
    readFields (parts + 1) (separated [','] (compactFields fields) ++ '}' :: left) = .ok (fields, left)
  | [], hsome, _, _, _, _ => absurd rfl hsome
  | [(name, v)], _, parts, left, hexact, hparts => by
    obtain ⟨c, rest, hopen, hc⟩ := compact_cons hexact.1
    rw [compactFields, compactFields, separated_singleton] at hparts ⊢
    rw [List.length_append, List.length_cons] at hparts
    obtain ⟨fewer, rfl⟩ : ∃ fewer, parts = fewer + 1 := ⟨parts - 1, by omega⟩
    have hv := readValue_compact v fewer ('}' :: left) hexact.1 (endsNumber_cons (by simp) left) (by omega)
    rw [List.append_assoc, List.cons_append]
    rw [hopen] at hv ⊢
    exact readFields_last hc hv
  | (name, v) :: field :: fields, _, parts, left, hexact, hparts => by
    obtain ⟨c, rest, hopen, hc⟩ := compact_cons hexact.1
    obtain ⟨rest', hopen'⟩ := separated_fields_cons field fields
    have hform : separated [','] (compactFields ((name, v) :: field :: fields)) = compactText name ++ ':' :: v.compact ++
        ',' :: separated [','] (compactFields (field :: fields)) := separated_cons_cons _ _ _ _
    rw [hform, List.length_append, List.length_append, List.length_cons, List.length_cons] at hparts
    obtain ⟨fewer, rfl⟩ : ∃ fewer, parts = fewer + 1 := ⟨parts - 1, by omega⟩
    have hv := readValue_compact v fewer
      (',' :: (separated [','] (compactFields (field :: fields)) ++ '}' :: left)) hexact.1
      (endsNumber_cons (by simp) _) (by omega)
    have hrest := readFields_compact (field :: fields) (List.cons_ne_nil _ _) fewer left hexact.2 (by omega)
    rw [hform, List.append_assoc, List.append_assoc, List.cons_append, List.cons_append]
    rw [hopen'] at hv hrest ⊢
    rw [hopen] at hv ⊢
    exact readFields_cons hc hv hrest

end

theorem read_compact {v : Json} (h : v.IsExact) : read (String.ofList v.compact) = .ok v := by
  obtain ⟨c, rest, hopen, hspace, -, hmark⟩ := compact_cons h
  have hvalue := readValue_compact v (2 * v.compact.length + 1) [] h endsNumber_nil (by omega)
  have hskip : skipSpace v.compact = v.compact := by rw [hopen, skipSpace_cons hspace]
  have hhead : v.compact.head? ≠ some '\ufeff' := by rw [hopen]; simpa using hmark
  rw [List.append_nil] at hvalue
  rw [read, String.toList_ofList, readWhole, if_neg hhead, hskip, hvalue]
  rfl

end ServiceMap.Json
