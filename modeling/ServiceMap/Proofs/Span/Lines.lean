import Mathlib.Data.List.TakeWhile
import ServiceMap.Proofs.Json.Completeness
import ServiceMap.Span.Document

/-!
# A line that cannot be read costs only itself

A stream that is no document as a whole is read line by line: the spans of the lines that can be read come one after the
other, and every other line that is not blank is passed over with a warning that says its number. This is so wherever a
line stands and whatever unfit value is wrong with it, with one exception: if reading the stream as a whole comes upon a
number with too many digits before anything else is wrong, the stream is refused, and so are all of its lines.
-/

namespace ServiceMap

namespace Text

variable {drop : Char → Bool} {text : List Char}

theorem trimOf_eq_nil_iff :
    trimOf drop text = [] ↔ ∀ c ∈ text, drop c = true := by
  constructor
  · intro h c hc
    rw [trimOf, List.reverse_eq_nil_iff, List.dropWhile_eq_nil_iff] at h
    rw [← List.takeWhile_append_dropWhile (p := drop) (l := text)] at hc
    obtain hfront | hback := List.mem_append.mp hc
    · exact List.all_eq_true.mp List.all_takeWhile c hfront
    · exact h c (List.mem_reverse.mpr hback)
  · intro h
    rw [trimOf, List.dropWhile_eq_nil_iff.mpr h]
    rfl

theorem trimOf_concat {c : Char} (hc : drop c = true) (hsome : text ≠ []) (hfront : ∀ c ∈ text.head?, drop c = false) :
    trimOf drop (text ++ [c]) = trimOf drop text := by
  have hhead : ∀ d ∈ (text ++ [c]).head?, drop d = false := by rwa [List.head?_append_of_ne_nil _ hsome]
  rw [trimOf, trimOf, dropWhile_of_head hhead, dropWhile_of_head hfront, List.reverse_append, List.reverse_singleton,
    List.singleton_append, List.dropWhile_cons_of_pos hc]

end Text

namespace Span

open Json (HasDigits IsDocument)

/-- The lines that are not blank, without the blanks around them and with their numbers, the first of all lines with this
number. -/
def numbered (number : Nat) (lines : List (List Char)) : List (Nat × String) :=
  ((lines.zipIdx number).map fun (line, n) => (n, String.ofList (Text.trimOf Text.isBlank line))).filter
    fun entry => !entry.2.isEmpty

/-- The spans of the texts that can be read, one after the other. -/
def spansIn (entries : List (Nat × String)) : List Span :=
  entries.flatMap fun (_, text) => ((ofText text).toOption).getD []

/-- The warnings about the texts that cannot be read. -/
def warningsIn (entries : List (Nat × String)) : List Warning :=
  entries.filterMap fun (number, text) =>
    match ofText text with
    | .ok _ => none
    | .error e => some (.line number e)

/-- If the text cannot be read, then for an unfit value. -/
def isFit (text : String) : Bool :=
  match ofText text with
  | .ok _ => true
  | .error e => e.isUnfitValue

theorem numbered_cons_of_blank {line : List Char} (h : (Text.trimOf Text.isBlank line).isEmpty = true) (number : Nat)
    (lines : List (List Char)) : numbered number (line :: lines) = numbered (number + 1) lines := by
  simp [numbered, List.isEmpty_iff.mp h]

theorem numbered_cons {line : List Char} (h : ¬(Text.trimOf Text.isBlank line).isEmpty = true) (number : Nat)
    (lines : List (List Char)) : numbered number (line :: lines) =
      (number, String.ofList (Text.trimOf Text.isBlank line)) :: numbered (number + 1) lines := by
  have hsome : Text.trimOf Text.isBlank line ≠ [] := by simpa using h
  simp [numbered, hsome]

section Entries

variable {text : String}

theorem entry_ok {spans : List Span} (h : ofText text = .ok spans) (number : Nat) (entries : List (Nat × String)) :
    spansIn ((number, text) :: entries) = spans ++ spansIn entries ∧
      warningsIn ((number, text) :: entries) = warningsIn entries := by
  simp [spansIn, warningsIn, h, Except.toOption]

theorem entry_error {e : Failure} (h : ofText text = .error e) (number : Nat) (entries : List (Nat × String)) :
    spansIn ((number, text) :: entries) = spansIn entries ∧
      warningsIn ((number, text) :: entries) = .line number e :: warningsIn entries := by
  simp [spansIn, warningsIn, h, Except.toOption]

theorem isUnfitValue_of_isFit {e : Failure} (hfit : isFit text = true) (h : ofText text = .error e) :
    e.isUnfitValue = true := by
  rwa [isFit, h] at hfit

end Entries

/-- Lines are read each on its own. -/
theorem ofLines_eq {lines : List (List Char)} {number : Nat} (hfit : ∀ entry ∈ numbered number lines, isFit entry.2) :
    ofLines number lines = ⟨warningsIn (numbered number lines), .ok (spansIn (numbered number lines))⟩ := by
  induction lines generalizing number with
  | nil => rfl
  | cons line lines ih =>
    rw [ofLines]
    by_cases hblank : (Text.trimOf Text.isBlank line).isEmpty = true
    · rw [numbered_cons_of_blank hblank] at hfit ⊢
      rw [if_pos hblank]
      exact ih hfit
    · rw [numbered_cons hblank] at hfit ⊢
      rw [List.forall_mem_cons] at hfit
      rw [if_neg hblank, ih hfit.2]
      cases hread : ofText (String.ofList (Text.trimOf Text.isBlank line)) with
      | ok spans =>
        obtain ⟨hspans, hwarnings⟩ := entry_ok hread number (numbered (number + 1) lines)
        rw [hspans, hwarnings]
        rfl
      | error e =>
        obtain ⟨hspans, hwarnings⟩ := entry_error hread number (numbered (number + 1) lines)
        dsimp only
        rw [hspans, hwarnings, if_pos (isUnfitValue_of_isFit hfit.1 hread)]
        rfl

/-! ### Streams -/

/-- The text of a stream without the blanks around it. -/
def contentOf (lines : List (List Char)) : List Char := Text.trimOf Text.isBlank lines.flatten

/-- If nothing is left of a stream, then all its lines are blank. -/
theorem numbered_of_contentOf_nil {lines : List (List Char)} (h : contentOf lines = []) (number : Nat) :
    numbered number lines = [] := by
  rw [contentOf, Text.trimOf_eq_nil_iff] at h
  induction lines generalizing number with
  | nil => rfl
  | cons line lines ih =>
    rw [List.flatten_cons, List.forall_mem_append] at h
    rw [numbered_cons_of_blank (List.isEmpty_iff.mpr (Text.trimOf_eq_nil_iff.mpr h.1))]
    exact ih h.2 (number + 1)

theorem ofStream_eq {lines : List (List Char)} (h : contentOf lines ≠ []) : ofStream lines =
    match Json.read (String.ofList (contentOf lines)) with
    | .error (.misplaced ..) => ofLines 1 lines
    | .error e => .quiet (.error (.unreadable e))
    | .ok document =>
      match ofDocument document with
      | .ok spans => .quiet (.ok spans)
      | .error e => if e.isUnfitValue then .warned (.document e) (.quiet (.ok [])) else .quiet (.error e) :=
  if_neg fun hempty => h (List.isEmpty_iff.mp hempty)

theorem ofStream_of_misplaced {lines : List (List Char)} {problem : Json.Problem} {place : Json.Place}
    (h : Json.read (String.ofList (contentOf lines)) = .error (.misplaced problem place)) :
    ofStream lines = ofLines 1 lines := by
  by_cases hempty : contentOf lines = []
  · have hnone := numbered_of_contentOf_nil hempty 1
    have hfit : ∀ entry ∈ numbered 1 lines, isFit entry.2 = true := by simp [hnone]
    rw [ofLines_eq hfit, hnone]
    exact if_pos (List.isEmpty_iff.mpr hempty)
  · rw [ofStream_eq hempty, h]

theorem ofStream_of_tooManyDigits {lines : List (List Char)} {count : Nat}
    (h : Json.read (String.ofList (contentOf lines)) = .error (.tooManyDigits count)) :
    ofStream lines = .quiet (.error (.unreadable (.tooManyDigits count))) := by
  have hsome : contentOf lines ≠ [] := by
    intro hempty
    have hnothing : Json.read (String.ofList []) = .error (.misplaced .expectingValue ⟨0, 1, 1⟩) := by decide +kernel
    rw [hempty, hnothing] at h
    cases h
  rw [ofStream_eq hsome, h]

/-- A stream that is no document is read line by line, unless too many digits in a row are come upon first. -/
theorem ofStream_of_not_isDocument {lines : List (List Char)} (hcontent : ¬ IsDocument (contentOf lines))
    (hfit : ∀ entry ∈ numbered 1 lines, isFit entry.2) :
    ofStream lines = ⟨warningsIn (numbered 1 lines), .ok (spansIn (numbered 1 lines))⟩ ∨
      ∃ count, Json.read (String.ofList (contentOf lines)) = .error (.tooManyDigits count) ∧
        Decimal.maxDigits < count ∧ HasDigits count (contentOf lines) ∧
        ofStream lines = .quiet (.error (.unreadable (.tooManyDigits count))) := by
  have hcases := Json.read_cases (String.ofList (contentOf lines))
  rw [String.toList_ofList] at hcases
  obtain ⟨-, h⟩ | ⟨⟨problem, place, hread⟩, -⟩ | ⟨count, hread, hcount, hdigits⟩ := hcases
  · exact absurd h hcontent
  · exact .inl ((ofStream_of_misplaced hread).trans (ofLines_eq hfit))
  · exact .inr ⟨count, hread, hcount, hdigits, ofStream_of_tooManyDigits hread⟩

def spanText : List Char := "[\x7b\"traceId\":\"7\",\"id\":\"b\"\x7d]".toList

def badFirstLine : List (List Char) := ["nope\n".toList, ['\n'], spanText ++ ['\n']]

theorem ofStream_of_not_isDocument_badFirstLine : ¬ IsDocument (contentOf badFirstLine) ∧
    (∀ entry ∈ numbered 1 badFirstLine, isFit entry.2) ∧
    (ofStream badFirstLine = ⟨warningsIn (numbered 1 badFirstLine), .ok (spansIn (numbered 1 badFirstLine))⟩ ∨
      ∃ count, Json.read (String.ofList (contentOf badFirstLine)) = .error (.tooManyDigits count) ∧
        Decimal.maxDigits < count ∧ HasDigits count (contentOf badFirstLine) ∧
        ofStream badFirstLine = .quiet (.error (.unreadable (.tooManyDigits count)))) := by
  have hread : Json.read (String.ofList (contentOf badFirstLine)) = .error (.misplaced .expectingValue ⟨0, 1, 1⟩) := by
    decide +kernel
  have hcontent : ¬ IsDocument (contentOf badFirstLine) := by
    have hnot := Json.not_isDocument hread
    rwa [String.toList_ofList] at hnot
  have hfit : ∀ entry ∈ numbered 1 badFirstLine, isFit entry.2 := by decide +kernel
  exact ⟨hcontent, hfit, ofStream_of_not_isDocument hcontent hfit⟩

/-! ### A number that is too long -/

/-- A number of this many digits, and behind it a line with a span. -/
def longFirstLine (count : Nat) : List (List Char) := [List.replicate count '1' ++ ['\n'], spanText ++ ['\n']]

section LongFirstLine

variable {count : Nat}

theorem trimOf_ones (h : 0 < count) :
    Text.trimOf Text.isBlank (List.replicate count '1' ++ ['\n']) = List.replicate count '1' := by
  have hone : ∀ c ∈ List.replicate count '1', Text.isBlank c = false :=
    fun c hc => List.eq_of_mem_replicate hc ▸ rfl
  have hsome : List.replicate count '1' ≠ [] := by simpa using Nat.ne_of_gt h
  rw [Text.trimOf_concat rfl hsome fun c hc => hone c (List.mem_of_mem_head? hc)]
  exact Text.trimOf_of_ends (fun c hc => hone c (List.mem_of_mem_head? hc))
    (fun c hc => hone c (List.mem_of_mem_getLast? hc))

theorem numbered_longFirstLine (h : 0 < count) : numbered 1 (longFirstLine count) =
    [(1, String.ofList (List.replicate count '1')), (2, String.ofList spanText)] := by
  have hsome : List.replicate count '1' ≠ [] := by simpa using Nat.ne_of_gt h
  rw [longFirstLine, numbered_cons, trimOf_ones h, numbered_cons]
  · rfl
  · decide
  · rw [trimOf_ones h]
    simpa using hsome

theorem contentOf_longFirstLine (h : 0 < count) :
    contentOf (longFirstLine count) = List.replicate count '1' ++ '\n' :: spanText := by
  obtain ⟨count, rfl⟩ : ∃ fewer, count = fewer + 1 := ⟨count - 1, by omega⟩
  have hlines : (longFirstLine (count + 1)).flatten =
      (List.replicate (count + 1) '1' ++ '\n' :: spanText) ++ ['\n'] := by
    simp [longFirstLine]
  have hfront : ∀ c ∈ (List.replicate (count + 1) '1' ++ '\n' :: spanText).head?, Text.isBlank c = false := by
    rw [List.replicate_succ]
    intro c hc
    exact Option.some.inj hc ▸ rfl
  have hback : ∀ c ∈ (List.replicate (count + 1) '1' ++ '\n' :: spanText).getLast?, Text.isBlank c = false := by
    have hlast : ('\n' :: spanText).getLast? = some ']' := by decide +kernel
    rw [List.getLast?_append_of_ne_nil _ (List.cons_ne_nil _ _), hlast]
    intro c hc
    exact Option.some.inj hc ▸ rfl
  rw [contentOf, hlines, Text.trimOf_concat rfl (by simp) hfront, Text.trimOf_of_ends hfront hback]

theorem head_ones (left : List Char) (h : 0 < count) : (List.replicate count '1' ++ left).head? ≠ some '0' := by
  obtain ⟨count, rfl⟩ : ∃ fewer, count = fewer + 1 := ⟨count - 1, by omega⟩
  simp [List.replicate_succ]

theorem read_ones (h : Decimal.maxDigits < count) {left : List Char} (hends : Json.EndsNumber left) :
    Json.read (String.ofList (List.replicate count '1' ++ left)) = .error (.tooManyDigits count) := by
  have hdigits : ∀ c ∈ List.replicate count '1', c.isDigit = true := fun c hc => List.eq_of_mem_replicate hc ▸ rfl
  have hread := Json.read_manyDigits hdigits (head_ones left (by omega)) (by rwa [List.length_replicate]) hends
  rwa [List.length_replicate] at hread

/-- The stream is refused for its first line. -/
theorem ofStream_longFirstLine (h : Decimal.maxDigits < count) :
    ofStream (longFirstLine count) = .quiet (.error (.unreadable (.tooManyDigits count))) := by
  apply ofStream_of_tooManyDigits
  rw [contentOf_longFirstLine (Nat.zero_lt_of_lt h)]
  exact read_ones h (by simp [Json.EndsNumber])

theorem isFit_longFirstLine (h : Decimal.maxDigits < count) :
    ∀ entry ∈ numbered 1 (longFirstLine count), isFit entry.2 := by
  have hread := read_ones h Json.endsNumber_nil
  rw [List.append_nil] at hread
  rw [numbered_longFirstLine (Nat.zero_lt_of_lt h), List.forall_mem_cons, List.forall_mem_singleton]
  constructor
  · rw [isFit, ofText, hread]
    rfl
  · decide +kernel

theorem not_isDocument_longFirstLine (h : 0 < count) : ¬ IsDocument (contentOf (longFirstLine count)) := by
  intro hdocument
  obtain ⟨count, rfl⟩ : ∃ fewer, count = fewer + 1 := ⟨count - 1, by omega⟩
  rw [contentOf_longFirstLine h, List.replicate_succ, List.cons_append] at hdocument
  have hspan : '[' ∈ spanText := by decide
  have hbracket : '[' ∈ '1' :: (List.replicate count '1' ++ '\n' :: spanText) :=
    List.mem_cons_of_mem _ (List.mem_append_right _ (List.mem_cons_of_mem _ hspan))
  exact absurd (hdocument.chars rfl '[' hbracket) (by decide)

end LongFirstLine

/-- Each line could be read or passed over on its own, but all are lost. -/
theorem longFirstLine_lost : ¬ IsDocument (contentOf (longFirstLine 4301)) ∧
    (numbered 1 (longFirstLine 4301)).length = 2 ∧ (∀ entry ∈ numbered 1 (longFirstLine 4301), isFit entry.2) ∧
    ofStream (longFirstLine 4301) ≠
      ⟨warningsIn (numbered 1 (longFirstLine 4301)), .ok (spansIn (numbered 1 (longFirstLine 4301)))⟩ := by
  have hlong : Decimal.maxDigits < 4301 := by decide
  have hpositive : 0 < 4301 := by decide
  refine ⟨not_isDocument_longFirstLine hpositive, ?_, isFit_longFirstLine hlong, ?_⟩
  · rw [numbered_longFirstLine hpositive]
    rfl
  · rw [ofStream_longFirstLine hlong]
    intro heq
    cases congrArg Reading.result heq

end Span

end ServiceMap
