import ServiceMap.Json.Reader

/-!
# The grammar of documents

What a document is, apart from what it says: the words, numerals and texts, and how arrays and objects are put together
from them, with spaces in between. A part of a document stands at the front of some characters and leaves others behind
it, which is how the reader goes about it, too.

The grammar sets no limit to the digits of a numeral, and an object may have fields of one name.
-/

namespace ServiceMap.Json

/-! ### Spaces, numerals and texts -/

inductive Spaces : List Char → List Char → Prop where
  | none {rest : List Char} : Spaces rest rest
  | cons {c : Char} {left rest : List Char} (hc : isSpace c = true) (h : Spaces left rest) : Spaces (c :: left) rest

/-- One digit or more. -/
inductive Digits : List Char → List Char → Prop where
  | last {c : Char} {rest : List Char} (hc : c.isDigit = true) : Digits (c :: rest) rest
  | cons {c : Char} {left rest : List Char} (hc : c.isDigit = true) (h : Digits left rest) : Digits (c :: left) rest

/-- The digits in front of the point, of which the first is no zero unless it is the only one. -/
inductive Whole : List Char → List Char → Prop where
  | zero {rest : List Char} : Whole ('0' :: rest) rest
  | digits {c : Char} {left rest : List Char} (hc : c ≠ '0') (h : Digits (c :: left) rest) : Whole (c :: left) rest

inductive Fraction : List Char → List Char → Prop where
  | none {rest : List Char} : Fraction rest rest
  | digits {left rest : List Char} (h : Digits left rest) : Fraction ('.' :: left) rest

inductive Exponent : List Char → List Char → Prop where
  | none {rest : List Char} : Exponent rest rest
  | plain {mark : Char} {left rest : List Char} (hmark : mark = 'e' ∨ mark = 'E') (h : Digits left rest) :
      Exponent (mark :: left) rest
  | signed {mark sign : Char} {left rest : List Char} (hmark : mark = 'e' ∨ mark = 'E') (hsign : sign = '+' ∨ sign = '-')
      (h : Digits left rest) : Exponent (mark :: sign :: left) rest

inductive Magnitude : List Char → List Char → Prop where
  | mk {left behind exponent rest : List Char} (hwhole : Whole left behind) (hpart : Fraction behind exponent)
      (hexponent : Exponent exponent rest) : Magnitude left rest

inductive Numeral : List Char → List Char → Prop where
  | positive {left rest : List Char} (h : Magnitude left rest) : Numeral left rest
  | negative {left rest : List Char} (h : Magnitude left rest) : Numeral ('-' :: left) rest

/-- The characters of a text behind its opening quote, up to the closing one. -/
inductive Quoted : List Char → List Char → Prop where
  | close {rest : List Char} : Quoted ('"' :: rest) rest
  | plain {c : Char} {left rest : List Char} (hquote : c ≠ '"') (hbackslash : c ≠ '\\') (hc : 0x1f < c.toNat)
      (h : Quoted left rest) : Quoted (c :: left) rest
  | escape {letter c : Char} {left rest : List Char} (hletter : shortEscape? letter = some c) (h : Quoted left rest) :
      Quoted ('\\' :: letter :: left) rest
  | code {a b c d : Char} {n : Nat} {left rest : List Char} (hcode : hexNumber? a b c d = some n) (h : Quoted left rest) :
      Quoted ('\\' :: 'u' :: a :: b :: c :: d :: left) rest

/-! ### Values -/

/-- What a document is made of: a value, or the items of an array or the fields of an object up to the closing bracket
or brace. -/
inductive Part where
  | value
  | items
  | fields

inductive Part.Takes : Part → List Char → List Char → Prop where
  | word {word rest : List Char} {v : Json} (h : (word, v) ∈ words) : Takes value (word ++ rest) rest
  | numeral {left rest : List Char} (h : Numeral left rest) : Takes value left rest
  | text {left rest : List Char} (h : Quoted left rest) : Takes value ('"' :: left) rest
  | emptyArray {left rest : List Char} (hclose : Spaces left (']' :: rest)) : Takes value ('[' :: left) rest
  | array {left inner rest : List Char} (hopen : Spaces left inner) (h : Takes items inner rest) :
      Takes value ('[' :: left) rest
  | emptyObject {left rest : List Char} (hclose : Spaces left ('}' :: rest)) : Takes value ('\x7b' :: left) rest
  | object {left inner rest : List Char} (hopen : Spaces left inner) (h : Takes fields inner rest) :
      Takes value ('\x7b' :: left) rest
  | lastItem {left behind rest : List Char} (h : Takes value left behind) (hclose : Spaces behind (']' :: rest)) :
      Takes items left rest
  | item {left behind next inner rest : List Char} (h : Takes value left behind) (hcomma : Spaces behind (',' :: next))
      (hopen : Spaces next inner) (hitems : Takes items inner rest) : Takes items left rest
  | lastField {left name colon inner behind rest : List Char} (hname : Quoted left name)
      (hcolon : Spaces name (':' :: colon)) (hopen : Spaces colon inner) (h : Takes value inner behind)
      (hclose : Spaces behind ('}' :: rest)) : Takes fields ('"' :: left) rest
  | field {left name colon inner behind next front rest : List Char} (hname : Quoted left name)
      (hcolon : Spaces name (':' :: colon)) (hopen : Spaces colon inner) (h : Takes value inner behind)
      (hcomma : Spaces behind (',' :: next)) (hnext : Spaces next front) (hfields : Takes fields front rest) :
      Takes fields ('"' :: left) rest

/-- The text is one value with spaces around it. -/
def IsDocument (text : List Char) : Prop :=
  ∃ inner behind, Spaces text inner ∧ Part.value.Takes inner behind ∧ Spaces behind []

variable {left rest : List Char}

/-! ### What is left is a part of the text -/

theorem Spaces.suffix (h : Spaces left rest) : rest <:+ left := by
  induction h with
  | none => exact List.suffix_rfl
  | cons _ _ ih => exact ih.trans (List.suffix_cons _ _)

theorem Spaces.suffix_tail {c : Char} (h : Spaces left (c :: rest)) : rest <:+ left :=
  (List.suffix_cons c rest).trans h.suffix

theorem Digits.suffix (h : Digits left rest) : rest <:+ left := by
  induction h with
  | last => exact List.suffix_cons _ _
  | cons _ _ ih => exact ih.trans (List.suffix_cons _ _)

theorem Whole.suffix (h : Whole left rest) : rest <:+ left := by
  cases h with
  | zero => exact List.suffix_cons _ _
  | digits _ h => exact h.suffix

theorem Fraction.suffix (h : Fraction left rest) : rest <:+ left := by
  cases h with
  | none => exact List.suffix_rfl
  | digits h => exact h.suffix.trans (List.suffix_cons _ _)

theorem Exponent.suffix (h : Exponent left rest) : rest <:+ left := by
  cases h with
  | none => exact List.suffix_rfl
  | plain _ h => exact h.suffix.trans (List.suffix_cons _ _)
  | signed _ _ h => exact h.suffix.trans ((List.suffix_cons _ _).trans (List.suffix_cons _ _))

theorem Magnitude.suffix (h : Magnitude left rest) : rest <:+ left := by
  obtain ⟨hwhole, hpart, hexponent⟩ := h
  exact hexponent.suffix.trans (hpart.suffix.trans hwhole.suffix)

theorem Numeral.suffix (h : Numeral left rest) : rest <:+ left := by
  cases h with
  | positive h => exact h.suffix
  | negative h => exact h.suffix.trans (List.suffix_cons _ _)

theorem Quoted.suffix (h : Quoted left rest) : rest <:+ left := by
  induction h with
  | close => exact List.suffix_cons _ _
  | plain _ _ _ _ ih => exact ih.trans (List.suffix_cons _ _)
  | @escape letter _ _ _ _ _ ih => exact ih.trans (List.suffix_append ['\\', letter] _)
  | @code a b c d _ _ _ _ _ ih => exact ih.trans (List.suffix_append ['\\', 'u', a, b, c, d] _)

theorem Part.Takes.suffix {part : Part} (h : part.Takes left rest) : rest <:+ left := by
  induction h with
  | word => exact List.suffix_append _ _
  | numeral h => exact h.suffix
  | text h => exact h.suffix.trans (List.suffix_cons _ _)
  | emptyArray hclose => exact hclose.suffix_tail.trans (List.suffix_cons _ _)
  | array hopen _ ih => exact ih.trans (hopen.suffix.trans (List.suffix_cons _ _))
  | emptyObject hclose => exact hclose.suffix_tail.trans (List.suffix_cons _ _)
  | object hopen _ ih => exact ih.trans (hopen.suffix.trans (List.suffix_cons _ _))
  | lastItem _ hclose ih => exact hclose.suffix_tail.trans ih
  | item _ hcomma hopen _ ih ihitems => exact ihitems.trans (hopen.suffix.trans (hcomma.suffix_tail.trans ih))
  | lastField hname hcolon hopen _ hclose ih =>
    have hinner := hopen.suffix.trans (hcolon.suffix_tail.trans hname.suffix)
    exact hclose.suffix_tail.trans (ih.trans (hinner.trans (List.suffix_cons _ _)))
  | field hname hcolon hopen _ hcomma hnext _ ih ihfields =>
    have hinner := hopen.suffix.trans (hcolon.suffix_tail.trans hname.suffix)
    have hfront := hnext.suffix.trans (hcomma.suffix_tail.trans ih)
    exact ihfields.trans (hfront.trans (hinner.trans (List.suffix_cons _ _)))

end ServiceMap.Json
