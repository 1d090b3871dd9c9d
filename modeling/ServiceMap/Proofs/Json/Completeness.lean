import ServiceMap.Proofs.Json.RoundTrip
import ServiceMap.Proofs.Json.Soundness

/-!
# Documents are read

Whatever the grammar has as a document, the reader takes it as a whole, unless it refuses one of its numerals for its
digits. It takes as much of a numeral as it can, so what is left behind a value must not continue a number; inside of a
document that is always so.
-/

namespace ServiceMap.Json

variable {left rest : List Char}

/-- A reading took everything up to what is left, or it stopped at the digits of a numeral. -/
def Accepts {α : Type} (rest : List Char) : Except Fault (α × List Char) → Prop
  | .ok (_, left) => left = rest
  | .error (.tooManyDigits _) => True
  | .error (.stop ..) => False

theorem Accepts.result {α : Type} {taken : Except Fault (α × List Char)} (h : Accepts rest taken) :
    (∃ a, taken = .ok (a, rest)) ∨ ∃ count, taken = .error (.tooManyDigits count) := by
  match taken, h with
  | .ok (a, _), rfl => exact .inl ⟨a, rfl⟩
  | .error (.tooManyDigits count), _ => exact .inr ⟨count, rfl⟩

theorem Accepts.bind {α β : Type} {taken : Except Fault (α × List Char)}
    {next : α × List Char → Except Fault (β × List Char)} (h : Accepts left taken)
    (hnext : ∀ a, Accepts rest (next (a, left))) : Accepts rest (taken >>= next) := by
  obtain ⟨a, rfl⟩ | ⟨count, rfl⟩ := h.result
  · exact hnext a
  · trivial

theorem Accepts.map {α β : Type} {taken : Except Fault (α × List Char)} {f : α × List Char → β × List Char}
    (h : Accepts rest taken) (hf : ∀ taken, (f taken).2 = taken.2) : Accepts rest (f <$> taken) := by
  obtain ⟨a, rfl⟩ | ⟨count, rfl⟩ := h.result
  · exact hf (a, rest)
  · trivial

/-! ### Numerals -/

/-- What is left does not begin with a digit. -/
def EndsDigits (left : List Char) : Prop := ∀ c ∈ left.head?, c.isDigit = false

theorem endsDigits_cons {c : Char} (h : c.isDigit = false) : EndsDigits (c :: left) := by
  intro d hd
  rwa [← Option.some.inj hd]

theorem EndsNumber.endsDigits (h : EndsNumber left) : EndsDigits left := fun c hc => (h c hc).1

theorem Digits.takeWhile (h : Digits left rest) (hends : EndsDigits rest) :
    left.takeWhile Char.isDigit ≠ [] ∧ left.dropWhile Char.isDigit = rest := by
  induction h with
  | @last c rest hc =>
    rw [List.takeWhile_cons_of_pos hc, List.dropWhile_cons_of_pos hc]
    refine ⟨List.cons_ne_nil _ _, ?_⟩
    cases rest with
    | nil => rfl
    | cons d rest => exact List.dropWhile_cons_of_neg (by simp [hends d rfl])
  | cons hc _ ih =>
    rw [List.takeWhile_cons_of_pos hc, List.dropWhile_cons_of_pos hc]
    exact ⟨List.cons_ne_nil _ _, (ih hends).2⟩

theorem Digits.head (h : Digits left rest) : ∃ c more, left = c :: more ∧ c.isDigit = true := by
  cases h with
  | last hc => exact ⟨_, _, rfl, hc⟩
  | cons hc _ => exact ⟨_, _, rfl, hc⟩

theorem Whole.head (h : Whole left rest) : ∃ c more, left = c :: more ∧ c.isDigit = true := by
  cases h with
  | zero => exact ⟨_, _, rfl, rfl⟩
  | digits _ h => exact h.head

theorem Whole.takeWhole (h : Whole left rest) (hends : EndsDigits rest) :
    (takeWhole left).1 ≠ [] ∧ (takeWhole left).2 = rest := by
  cases h with
  | zero => exact ⟨List.cons_ne_nil _ _, rfl⟩
  | digits hc h =>
    unfold Json.takeWhole
    split
    · rename_i hzero
      exact absurd (List.head_eq_of_cons_eq hzero) hc
    · exact h.takeWhile hends

theorem Fraction.takeFraction (h : Fraction left rest) (hends : EndsDigits rest) (hpoint : rest.head? ≠ some '.') :
    (takeFraction left).2 = rest := by
  cases h with
  | none =>
    unfold Json.takeFraction
    split
    · exact absurd rfl hpoint
    · rfl
  | @digits left _ h =>
    obtain ⟨hsome, hdrop⟩ := h.takeWhile hends
    have hempty : ¬(left.takeWhile Char.isDigit).isEmpty = true := by simpa using hsome
    rw [Json.takeFraction, if_neg hempty]
    exact hdrop

theorem Exponent.takeExponent (h : Exponent left rest) (hends : EndsNumber rest) : (takeExponent left).2 = rest := by
  have hmarked {mark : Char} {left : List Char} (hmark : mark = 'e' ∨ mark = 'E') (h : Digits left rest) :
      ((mark = 'e' || mark = 'E') && !(left.takeWhile Char.isDigit).isEmpty) = true := by
    simpa [hmark] using (h.takeWhile hends.endsDigits).1
  cases h with
  | none => rw [takeExponent_of_endsNumber hends]
  | plain hmark h =>
    have hfirst := h.head
    unfold Json.takeExponent
    dsimp only
    split
    · exact absurd hfirst (by simp)
    · exact absurd hfirst (by simp)
    · rw [if_pos (hmarked hmark h)]
      exact (h.takeWhile hends.endsDigits).2
  | signed hmark hsign h =>
    rcases hsign with rfl | rfl
    · rw [Json.takeExponent, if_pos (hmarked hmark h)]
      exact (h.takeWhile hends.endsDigits).2
    · rw [Json.takeExponent, if_pos (hmarked hmark h)]
      exact (h.takeWhile hends.endsDigits).2

theorem Exponent.ends (h : Exponent left rest) (hends : EndsNumber rest) :
    EndsDigits left ∧ left.head? ≠ some '.' := by
  cases h with
  | none => exact ⟨hends.endsDigits, fun h => (hends '.' h).2.1 rfl⟩
  | plain hmark _ => rcases hmark with rfl | rfl <;> exact ⟨endsDigits_cons rfl, by simp⟩
  | signed hmark _ _ => rcases hmark with rfl | rfl <;> exact ⟨endsDigits_cons rfl, by simp⟩

theorem Fraction.endsDigits (h : Fraction left rest) (hends : EndsDigits rest) : EndsDigits left := by
  cases h with
  | none => exact hends
  | digits _ => exact endsDigits_cons rfl

/-- Whatever has a digit in front is a number up to where no more of it can be taken. -/
theorem accepts_readNumber (h : (takeWhole (takeSign left).2).1 ≠ []) :
    Accepts (takeExponent (takeFraction (takeWhole (takeSign left).2).2).2).2 (readNumber left) := by
  unfold readNumber
  dsimp only
  split
  · rename_i hempty
    exact absurd (List.isEmpty_iff.mp hempty) h
  · split
    · rename_i hexponent
      split
      · trivial
      · rw [hexponent]
        rfl
    · rename_i hexponent _
      rw [hexponent]
      rfl

theorem Magnitude.accepts {number : List Char} (h : Magnitude left rest) (hsign : (takeSign number).2 = left)
    (hends : EndsNumber rest) : Accepts rest (readNumber number) := by
  obtain ⟨hwhole, hpart, hexponent⟩ := h
  obtain ⟨hendsExponent, hpoint⟩ := hexponent.ends hends
  obtain ⟨hsome, hbehind⟩ := hwhole.takeWhole (hpart.endsDigits hendsExponent)
  have hnumber := accepts_readNumber (hsign ▸ hsome)
  rwa [hsign, hbehind, hpart.takeFraction hendsExponent hpoint, hexponent.takeExponent hends] at hnumber

theorem Magnitude.head (h : Magnitude left rest) : ∃ c more, left = c :: more ∧ c.isDigit = true := by
  obtain ⟨hwhole, -, -⟩ := h
  exact hwhole.head

/-- A numeral begins with a digit, perhaps behind a minus sign. -/
theorem Numeral.head (h : Numeral left rest) : ∃ c more, c.isDigit = true ∧ (left = c :: more ∨ left = '-' :: c :: more) := by
  cases h with
  | positive h =>
    obtain ⟨c, more, rfl, hc⟩ := h.head
    exact ⟨c, more, hc, .inl rfl⟩
  | negative h =>
    obtain ⟨c, more, rfl, hc⟩ := h.head
    exact ⟨c, more, hc, .inr rfl⟩

theorem Numeral.accepts (h : Numeral left rest) (hends : EndsNumber rest) : Accepts rest (readScalar left) := by
  obtain ⟨c, more, hc, hform⟩ := h.head
  rw [readScalar_of_digit hc hform]
  cases h with
  | positive h =>
    refine h.accepts ?_ hends
    obtain ⟨digit, digits, rfl, hdigit⟩ := h.head
    rw [takeSign_of_isDigit hdigit]
  | negative h => exact h.accepts rfl hends

/-! ### Texts -/

theorem Quoted.ne_nil (h : Quoted left rest) : left ≠ [] := by
  cases h <;> exact List.cons_ne_nil _ _

theorem Quoted.joinEscape (h : Quoted left rest) (n : Nat) : ∃ e length, joinEscape n left = .ok (e, length) ∧
    ∀ a b c d, Quoted (('u' :: a :: b :: c :: d :: left).drop length) rest := by
  unfold Json.joinEscape
  split
  · rename_i a b c d next more _
    cases h with
    | plain _ hbackslash => exact absurd rfl hbackslash
    | escape hletter => cases hletter
    | code hcode hmore =>
      rw [hcode]
      dsimp only
      split
      · exact ⟨_, 11, rfl, fun _ _ _ _ => hmore⟩
      · exact ⟨_, 5, rfl, fun _ _ _ _ => .code hcode hmore⟩
  · exact ⟨_, 5, rfl, fun _ _ _ _ => h⟩

/-- The escape behind a backslash is read, and what is left behind it is quoted as well. -/
theorem Quoted.readEscape {letter : Char} {more : List Char} (h : Quoted ('\\' :: letter :: more) rest) :
    ∃ e length, readEscape letter more = .ok (e, length) ∧ Quoted ((letter :: more).drop length) rest := by
  cases h with
  | plain _ hbackslash => exact absurd rfl hbackslash
  | @escape _ c _ _ hletter h =>
    have hcode : letter ≠ 'u' := by
      rintro rfl
      cases hletter
    exact ⟨c, 1, by rw [readEscape.eq_def, if_neg hcode, hletter], h⟩
  | @code a b c d n left _ hcode h =>
    obtain ⟨e, length, hjoin, hrest⟩ := h.joinEscape n
    obtain ⟨next, after, rfl⟩ := List.exists_cons_of_ne_nil h.ne_nil
    exact ⟨e, length, by simp only [readEscape.eq_def, if_true, hcode, hjoin], hrest a b c d⟩

theorem accepts_readText {opening : List Char} {skipped : Nat} (h : Quoted (left.drop skipped) rest) :
    Accepts rest (readText opening skipped left) := by
  induction left generalizing skipped with
  | nil => exact absurd List.drop_nil h.ne_nil
  | cons c left ih =>
    cases skipped with
    | succ skipped => exact ih h
    | zero =>
      rw [List.drop_zero] at h
      rw [readText.eq_def]
      dsimp only
      split
      · rename_i hquote
        subst hquote
        cases h with
        | close => rfl
        | plain hquote => exact absurd rfl hquote
      · rename_i hquote
        split
        · rename_i hbackslash
          subst hbackslash
          cases left with
          | nil =>
            cases h with
            | plain _ hbackslash => exact absurd rfl hbackslash
          | cons letter more =>
            obtain ⟨e, length, hescape, hmore⟩ := h.readEscape
            simp only [hescape]
            exact (ih hmore).map fun _ => rfl
        · rename_i hbackslash
          cases h with
          | close => exact absurd rfl hquote
          | plain _ _ hc h =>
            rw [if_neg (Nat.not_le.mpr hc)]
            exact (ih (List.drop_zero ▸ h)).map fun _ => rfl
          | escape => exact absurd rfl hbackslash
          | code => exact absurd rfl hbackslash

theorem Quoted.accepts {opening : List Char} (h : Quoted left rest) : Accepts rest (readText opening 0 left) :=
  accepts_readText h

/-! ### Values -/

theorem word_cases {word : List Char} {v : Json} (h : (word, v) ∈ words) :
    (∃ c more, word = c :: more ∧ OpensValue c ∧ c.isDigit = false) ∧
      ∀ parts rest, readValue (parts + 1) (word ++ rest) = .ok (v, rest) := by
  simp only [words, List.mem_cons, List.not_mem_nil, or_false, Prod.mk.injEq] at h
  obtain ⟨rfl, rfl⟩ | ⟨rfl, rfl⟩ | ⟨rfl, rfl⟩ | ⟨rfl, rfl⟩ | ⟨rfl, rfl⟩ | ⟨rfl, rfl⟩ := h
  all_goals
    refine ⟨⟨_, _, rfl, by decide⟩, fun parts rest => ?_⟩
    exact (readValue_scalar (by decide) (by decide) (by decide)).trans rfl

/-- A value or the items of an array begin with a character that may open a value, and so do the fields of an object. -/
theorem Part.Takes.head {part : Part} (h : part.Takes left rest) : ∃ c more, left = c :: more ∧ OpensValue c := by
  induction h with
  | word h =>
    obtain ⟨⟨c, more, rfl, hc, -⟩, -⟩ := word_cases h
    exact ⟨c, _, rfl, hc⟩
  | numeral h =>
    obtain ⟨c, more, hc, rfl | rfl⟩ := h.head
    · exact ⟨c, more, rfl, opensValue_of_isDigit hc⟩
    · exact ⟨'-', _, rfl, by decide⟩
  | text | emptyArray | array | emptyObject | object | lastField | field => exact ⟨_, _, rfl, by decide⟩
  | lastItem _ _ ih | item _ _ _ _ ih => exact ih

theorem Part.Takes.fields_head (h : Part.fields.Takes left rest) : ∃ more, left = '"' :: more := by
  cases h <;> exact ⟨_, rfl⟩

theorem Spaces.skipSpace {c : Char} (h : Spaces left (c :: rest)) (hc : isSpace c = false) :
    skipSpace left = c :: rest := by
  induction left with
  | nil => cases h
  | cons d left ih =>
    cases h with
    | none => exact skipSpace_cons hc _
    | cons hd h =>
      rw [Json.skipSpace, List.dropWhile_cons_of_pos hd]
      exact ih h

theorem Spaces.skipSpace_nil (h : Spaces left []) : Json.skipSpace left = [] := by
  induction left with
  | nil => rfl
  | cons d left ih =>
    cases h with
    | cons hd h =>
      rw [Json.skipSpace, List.dropWhile_cons_of_pos hd]
      exact ih h

theorem endsNumber_of_isSpace {c : Char} (hc : isSpace c = true) (left : List Char) : EndsNumber (c :: left) := by
  simp only [isSpace, Bool.or_eq_true, decide_eq_true_eq] at hc
  intro d hd
  obtain rfl := Option.some.inj hd
  rcases hc with ((rfl | rfl) | rfl) | rfl <;> decide

theorem Spaces.endsNumber (h : Spaces left rest) (hends : EndsNumber rest) : EndsNumber left := by
  cases h with
  | none => exact hends
  | cons hc _ => exact endsNumber_of_isSpace hc _

/-- The reader takes the part, if as many parts may be opened as the characters can have. What is left behind a value must
not continue a number. -/
def Part.Read : Part → List Char → List Char → Prop
  | value, left, rest => ∀ parts, 2 * left.length ≤ parts → EndsNumber rest → Accepts rest (readValue parts left)
  | items, left, rest => ∀ parts, 2 * left.length + 1 ≤ parts → Accepts rest (readItems parts left)
  | fields, left, rest => ∀ parts, 2 * left.length ≤ parts → Accepts rest (readFields parts left)

namespace Part.Read

variable {inner behind next name colon front : List Char}

/-! With one part opened, as many are left as the characters behind the first one can have. -/

theorem value {c : Char} (h : ∀ parts, 2 * left.length + 1 ≤ parts → EndsNumber rest →
    Accepts rest (readValue (parts + 1) (c :: left))) : Part.value.Read (c :: left) rest := by
  intro parts hparts hends
  rw [List.length_cons] at hparts
  obtain ⟨parts, rfl⟩ := Nat.exists_eq_add_one_of_ne_zero (show parts ≠ 0 by omega)
  exact h parts (by omega) hends

theorem items (h : ∀ parts, 2 * left.length ≤ parts → Accepts rest (readItems (parts + 1) left)) :
    Part.items.Read left rest := by
  intro parts hparts
  obtain ⟨parts, rfl⟩ := Nat.exists_eq_add_one_of_ne_zero (show parts ≠ 0 by omega)
  exact h parts (by omega)

theorem fields {c : Char} (h : ∀ parts, 2 * left.length + 1 ≤ parts → Accepts rest (readFields (parts + 1) (c :: left))) :
    Part.fields.Read (c :: left) rest := by
  intro parts hparts
  rw [List.length_cons] at hparts
  obtain ⟨parts, rfl⟩ := Nat.exists_eq_add_one_of_ne_zero (show parts ≠ 0 by omega)
  exact h parts (by omega)

/-! One lemma for each way to put a part together. -/

theorem word {word : List Char} {v : Json} (h : (word, v) ∈ words) : Part.value.Read (word ++ rest) rest := by
  obtain ⟨⟨c, more, rfl, -⟩, hread⟩ := word_cases h
  rw [List.cons_append]
  refine value fun parts _ _ => ?_
  rw [← List.cons_append, hread]
  rfl

theorem numeral (h : Numeral left rest) : Part.value.Read left rest := by
  obtain ⟨c, more, hc, rfl | rfl⟩ := h.head
  · refine value fun parts _ hends => ?_
    rw [readValue_scalar (ne_of_isDigit hc rfl) (ne_of_isDigit hc rfl) (ne_of_isDigit hc rfl)]
    exact h.accepts hends
  · refine value fun parts _ hends => ?_
    rw [readValue_scalar (by decide) (by decide) (by decide)]
    exact h.accepts hends

theorem text (h : Quoted left rest) : Part.value.Read ('"' :: left) rest := by
  refine value fun parts _ _ => ?_
  rw [readValue]
  exact h.accepts.map fun _ => rfl

theorem emptyArray (hclose : Spaces left (']' :: rest)) : Part.value.Read ('[' :: left) rest := by
  refine value fun parts _ _ => ?_
  rw [readValue, hclose.skipSpace rfl]
  rfl

theorem array (hopen : Spaces left inner) (h : Part.items.Takes inner rest) (ih : Part.items.Read inner rest) :
    Part.value.Read ('[' :: left) rest := by
  refine value fun parts hparts _ => ?_
  obtain ⟨c, more, rfl, hc⟩ := h.head
  have hlength := hopen.suffix.length_le
  rw [readValue, hopen.skipSpace hc.1]
  split
  · rename_i hclose
    exact absurd (List.head_eq_of_cons_eq hclose) hc.2.1
  · exact (ih parts (by omega)).map fun _ => rfl

theorem emptyObject (hclose : Spaces left ('}' :: rest)) : Part.value.Read ('\x7b' :: left) rest := by
  refine value fun parts _ _ => ?_
  rw [readValue, hclose.skipSpace rfl]
  rfl

theorem object (hopen : Spaces left inner) (h : Part.fields.Takes inner rest) (ih : Part.fields.Read inner rest) :
    Part.value.Read ('\x7b' :: left) rest := by
  refine value fun parts hparts _ => ?_
  obtain ⟨more, rfl⟩ := h.fields_head
  have hlength := hopen.suffix.length_le
  rw [readValue, hopen.skipSpace rfl]
  exact (ih parts (by omega)).map fun _ => rfl

theorem lastItem (hclose : Spaces behind (']' :: rest)) (ih : Part.value.Read left behind) :
    Part.items.Read left rest := by
  refine items fun parts hparts => ?_
  rw [readItems]
  refine (ih parts hparts (hclose.endsNumber (endsNumber_cons (by simp) _))).bind fun item => ?_
  dsimp only
  rw [hclose.skipSpace rfl]
  rfl

theorem item (h : Part.value.Takes left behind) (hcomma : Spaces behind (',' :: next)) (hopen : Spaces next inner)
    (hitems : Part.items.Takes inner rest) (ih : Part.value.Read left behind) (ihitems : Part.items.Read inner rest) :
    Part.items.Read left rest := by
  refine items fun parts hparts => ?_
  obtain ⟨c, more, rfl, hc⟩ := hitems.head
  have hlength := hopen.suffix.length_le
  have hnext := (hcomma.suffix.trans h.suffix).length_le
  rw [List.length_cons] at hnext
  have hmore := ihitems parts (by omega)
  rw [← hopen.skipSpace hc.1] at hmore
  rw [readItems]
  refine (ih parts hparts (hcomma.endsNumber (endsNumber_cons (by simp) _))).bind fun item => ?_
  dsimp only
  rw [hcomma.skipSpace rfl]
  exact hmore.bind fun items => rfl

theorem lastField (hname : Quoted left name) (hcolon : Spaces name (':' :: colon)) (hopen : Spaces colon inner)
    (h : Part.value.Takes inner behind) (hclose : Spaces behind ('}' :: rest)) (ih : Part.value.Read inner behind) :
    Part.fields.Read ('"' :: left) rest := by
  refine fields fun parts hparts => ?_
  obtain ⟨c, more, rfl, hc⟩ := h.head
  have hlength := (hopen.suffix.trans (hcolon.suffix_tail.trans hname.suffix)).length_le
  have hvalue := ih parts (by omega) (hclose.endsNumber (endsNumber_cons (by simp) _))
  rw [← hopen.skipSpace hc.1] at hvalue
  rw [readFields]
  refine hname.accepts.bind fun name => ?_
  dsimp only
  rw [hcolon.skipSpace rfl]
  refine hvalue.bind fun v => ?_
  dsimp only
  rw [hclose.skipSpace rfl]
  rfl

theorem field (hname : Quoted left name) (hcolon : Spaces name (':' :: colon)) (hopen : Spaces colon inner)
    (h : Part.value.Takes inner behind) (hcomma : Spaces behind (',' :: next)) (hnext : Spaces next front)
    (hfields : Part.fields.Takes front rest) (ih : Part.value.Read inner behind) (ihfields : Part.fields.Read front rest) :
    Part.fields.Read ('"' :: left) rest := by
  refine fields fun parts hparts => ?_
  obtain ⟨c, more, rfl, hc⟩ := h.head
  obtain ⟨more', rfl⟩ := hfields.fields_head
  have hlength := (hopen.suffix.trans (hcolon.suffix_tail.trans hname.suffix)).length_le
  have hlength' := (hnext.suffix.trans (hcomma.suffix_tail.trans h.suffix)).length_le
  have hvalue := ih parts (by omega) (hcomma.endsNumber (endsNumber_cons (by simp) _))
  have hmore := ihfields parts (by omega)
  rw [← hopen.skipSpace hc.1] at hvalue
  rw [← hnext.skipSpace rfl] at hmore
  rw [readFields]
  refine hname.accepts.bind fun name => ?_
  dsimp only
  rw [hcolon.skipSpace rfl]
  refine hvalue.bind fun v => ?_
  dsimp only
  rw [hcomma.skipSpace rfl]
  exact hmore.bind fun fields => rfl

end Part.Read

/-- Every part is read, by induction on how it is put together. -/
theorem Part.Takes.read {part : Part} (h : part.Takes left rest) : part.Read left rest := by
  induction h with
  | word h => exact .word h
  | numeral h => exact .numeral h
  | text h => exact .text h
  | emptyArray hclose => exact .emptyArray hclose
  | array hopen h ih => exact .array hopen h ih
  | emptyObject hclose => exact .emptyObject hclose
  | object hopen h ih => exact .object hopen h ih
  | lastItem _ hclose ih => exact .lastItem hclose ih
  | item h hcomma hopen hitems ih ihitems => exact .item h hcomma hopen hitems ih ihitems
  | lastField hname hcolon hopen h hclose ih => exact .lastField hname hcolon hopen h hclose ih
  | field hname hcolon hopen h hcomma hnext hfields ih ihfields =>
    exact .field hname hcolon hopen h hcomma hnext hfields ih ihfields

/-! ### Documents -/

/-- A document does not begin with a byte order mark. -/
theorem IsDocument.head (h : IsDocument left) : left.head? ≠ some '\ufeff' := by
  obtain ⟨inner, behind, hopen, hvalue, -⟩ := h
  cases hopen with
  | none =>
    obtain ⟨c, more, rfl, hc⟩ := hvalue.head
    simpa using hc.2.2
  | cons hspace =>
    intro hmark
    obtain rfl := Option.some.inj hmark
    exact absurd hspace (by decide)

theorem IsDocument.readWhole (h : IsDocument left) :
    (∃ v, readWhole left = .ok v) ∨ ∃ count, readWhole left = .error (.tooManyDigits count) := by
  have hmark := h.head
  obtain ⟨inner, behind, hopen, hvalue, hclose⟩ := h
  obtain ⟨c, more, rfl, hc⟩ := hvalue.head
  have hlength := hopen.suffix.length_le
  have hread := hvalue.read (2 * left.length + 2) (by omega) (hclose.endsNumber endsNumber_nil)
  rw [Json.readWhole, if_neg hmark, hopen.skipSpace hc.1]
  obtain ⟨v, hv⟩ | ⟨count, hcount⟩ := hread.result
  · refine .inl ⟨v, ?_⟩
    rw [hv]
    dsimp only [bind, Except.bind]
    rw [hclose.skipSpace_nil]
    rfl
  · refine .inr ⟨count, ?_⟩
    rw [hcount]
    rfl

/-- A text is read if it is a document, and refused for what is wrong at a place if it is none, unless it is refused for
too many digits in a row. -/
theorem read_cases (text : String) :
    (∃ v, read text = .ok v) ∧ IsDocument text.toList ∨
      (∃ problem place, read text = .error (.misplaced problem place)) ∧ ¬ IsDocument text.toList ∨
      ∃ count, read text = .error (.tooManyDigits count) ∧ Decimal.maxDigits < count ∧ HasDigits count text.toList := by
  have hagrees := readWhole_agrees text.toList
  rw [read]
  cases hread : readWhole text.toList with
  | ok v =>
    rw [hread] at hagrees
    exact .inl ⟨⟨v, rfl⟩, hagrees⟩
  | error fault =>
    rw [hread] at hagrees
    cases fault with
    | tooManyDigits count => exact .inr (.inr ⟨count, rfl, hagrees⟩)
    | stop problem left =>
      refine .inr (.inl ⟨⟨problem, _, rfl⟩, fun h => ?_⟩)
      obtain ⟨v, hv⟩ | ⟨count, hcount⟩ := h.readWhole
      · rw [hread] at hv
        cases hv
      · rw [hread] at hcount
        cases hcount

theorem not_isDocument {text : String} {problem : Problem} {place : Place}
    (h : read text = .error (.misplaced problem place)) : ¬ IsDocument text.toList := by
  obtain ⟨⟨v, hread⟩, -⟩ | ⟨-, hnot⟩ | ⟨count, hread, -⟩ := read_cases text
  · rw [h] at hread
    cases hread
  · exact hnot
  · rw [h] at hread
    cases hread

/-! ### Texts that begin with a numeral -/

def IsNumeralChar (c : Char) : Prop := c.isDigit = true ∨ c ∈ ['-', '+', '.', 'e', 'E']

instance (c : Char) : Decidable (IsNumeralChar c) := inferInstanceAs (Decidable (_ ∨ _))

theorem Digits.chars (h : Digits left rest) : ∀ c ∈ left, IsNumeralChar c ∨ c ∈ rest := by
  induction h with
  | last hc => exact List.forall_mem_cons.mpr ⟨.inl (.inl hc), fun _ => .inr⟩
  | cons hc _ ih => exact List.forall_mem_cons.mpr ⟨.inl (.inl hc), ih⟩

theorem Whole.chars (h : Whole left rest) : ∀ c ∈ left, IsNumeralChar c ∨ c ∈ rest := by
  cases h with
  | zero => exact List.forall_mem_cons.mpr ⟨.inl (by decide), fun _ => .inr⟩
  | digits _ h => exact h.chars

theorem Fraction.chars (h : Fraction left rest) : ∀ c ∈ left, IsNumeralChar c ∨ c ∈ rest := by
  cases h with
  | none => exact fun _ => .inr
  | digits h => exact List.forall_mem_cons.mpr ⟨.inl (by decide), h.chars⟩

theorem Exponent.chars (h : Exponent left rest) : ∀ c ∈ left, IsNumeralChar c ∨ c ∈ rest := by
  cases h with
  | none => exact fun _ => .inr
  | plain hmark h =>
    refine List.forall_mem_cons.mpr ⟨.inl ?_, h.chars⟩
    rcases hmark with rfl | rfl <;> decide
  | signed hmark hsign h =>
    refine List.forall_mem_cons.mpr ⟨.inl ?_, List.forall_mem_cons.mpr ⟨.inl ?_, h.chars⟩⟩
    · rcases hmark with rfl | rfl <;> decide
    · rcases hsign with rfl | rfl <;> decide

theorem Magnitude.chars (h : Magnitude left rest) : ∀ c ∈ left, IsNumeralChar c ∨ c ∈ rest := by
  obtain ⟨hwhole, hpart, hexponent⟩ := h
  intro c hc
  obtain h | hc := hwhole.chars c hc
  · exact .inl h
  obtain h | hc := hpart.chars c hc
  · exact .inl h
  exact hexponent.chars c hc

theorem Numeral.chars (h : Numeral left rest) : ∀ c ∈ left, IsNumeralChar c ∨ c ∈ rest := by
  cases h with
  | positive h => exact h.chars
  | negative h => exact List.forall_mem_cons.mpr ⟨.inl (by decide), h.chars⟩

theorem Spaces.chars (h : Spaces left []) : ∀ c ∈ left, isSpace c = true := by
  induction left with
  | nil => simp
  | cons c left ih =>
    cases h with
    | cons hc h => exact List.forall_mem_cons.mpr ⟨hc, ih h⟩

/-- A document that begins with a digit is a numeral with spaces behind it. -/
theorem IsDocument.chars {c : Char} (hc : c.isDigit = true) (h : IsDocument (c :: left)) :
    ∀ d ∈ c :: left, IsNumeralChar d ∨ isSpace d = true := by
  obtain ⟨inner, behind, hopen, hvalue, hclose⟩ := h
  cases hopen with
  | cons hspace => exact absurd hspace (by simp [(opensValue_of_isDigit hc).1])
  | none =>
    generalize hinner : c :: left = inner at hvalue ⊢
    cases hvalue with
    | numeral h => exact fun d hd => (h.chars d hd).imp_right (hclose.chars d)
    | word h =>
      obtain ⟨⟨d, more, rfl, -, hd⟩, -⟩ := word_cases h
      rw [List.head_eq_of_cons_eq hinner, hd] at hc
      cases hc
    | text | emptyArray | array | emptyObject | object =>
      rw [List.head_eq_of_cons_eq hinner] at hc
      cases hc

section ManyDigits

variable {digits : List Char}

theorem readNumber_manyDigits (hdigits : ∀ c ∈ digits, c.isDigit = true) (hzero : (digits ++ left).head? ≠ some '0')
    (hlong : Decimal.maxDigits < digits.length) (hends : EndsNumber left) :
    readNumber (digits ++ left) = .error (.tooManyDigits digits.length) := by
  have hwhole := takeWhole_append hdigits hzero hends
  obtain ⟨c, more, rfl⟩ := List.exists_cons_of_length_pos (Nat.zero_lt_of_lt hlong)
  have hsign := takeSign_of_isDigit (hdigits c List.mem_cons_self) (more ++ left)
  rw [List.cons_append] at hwhole ⊢
  simp only [readNumber, hsign, hwhole, takeFraction_of_endsNumber hends, takeExponent_of_endsNumber hends,
    List.isEmpty_cons, Bool.false_eq_true, if_false, gt_iff_lt, hlong, if_true]

/-- A numeral of too many digits is refused, whatever follows it. -/
theorem read_manyDigits (hdigits : ∀ c ∈ digits, c.isDigit = true) (hzero : (digits ++ left).head? ≠ some '0')
    (hlong : Decimal.maxDigits < digits.length) (hends : EndsNumber left) :
    read (String.ofList (digits ++ left)) = .error (.tooManyDigits digits.length) := by
  have hnumber := readNumber_manyDigits hdigits hzero hlong hends
  obtain ⟨c, more, rfl⟩ := List.exists_cons_of_length_pos (Nat.zero_lt_of_lt hlong)
  have hc := hdigits c List.mem_cons_self
  have hopens := opensValue_of_isDigit hc
  rw [List.cons_append] at hnumber ⊢
  have hvalue (parts : Nat) : readValue (parts + 1) (c :: (more ++ left)) = .error (.tooManyDigits (c :: more).length) :=
    (readValue_scalar (ne_of_isDigit hc rfl) (ne_of_isDigit hc rfl) (ne_of_isDigit hc rfl)).trans
      ((readScalar_of_digit hc (.inl rfl)).trans hnumber)
  have hmark : (c :: (more ++ left)).head? ≠ some '\ufeff' := by simpa using hopens.2.2
  rw [read, String.toList_ofList, readWhole, if_neg hmark, skipSpace_cons hopens.1, hvalue]
  rfl

end ManyDigits

end ServiceMap.Json
