import Mathlib.Data.List.Basic
import ServiceMap.Proofs.Json.Grammar

/-!
# What is read is a document

Whatever the reader takes is a part of a document as the grammar has it. It refuses a numeral for its digits only where
more of them stand in a row than are read.
-/

namespace ServiceMap.Json

variable {left rest : List Char}

/-- A run of digits somewhere in a text. -/
def HasDigits (count : Nat) (text : List Char) : Prop :=
  ∃ run, run <:+: text ∧ run.length = count ∧ ∀ c ∈ run, c.isDigit = true

theorem HasDigits.of_suffix {count : Nat} (h : HasDigits count rest) (hsuffix : rest <:+ left) : HasDigits count left := by
  obtain ⟨run, hrun, hlength, hdigits⟩ := h
  exact ⟨run, hrun.trans hsuffix.isInfix, hlength, hdigits⟩

/-- What a reading took, if anything, is what it should take, and it stopped at the digits of a numeral only if there
were too many of them. -/
def Agrees {α : Type} (takes : List Char → List Char → Prop) (left : List Char) : Except Fault (α × List Char) → Prop
  | .ok (_, rest) => takes left rest
  | .error (.tooManyDigits count) => Decimal.maxDigits < count ∧ HasDigits count left
  | .error (.stop ..) => True

theorem Agrees.error {α β : Type} {takes takes' : List Char → List Char → Prop} {fault : Fault}
    (h : Agrees takes rest (.error fault : Except Fault (α × List Char))) (hsuffix : rest <:+ left) :
    Agrees takes' left (.error fault : Except Fault (β × List Char)) := by
  cases fault with
  | stop problem left => trivial
  | tooManyDigits count => exact ⟨h.1, h.2.of_suffix hsuffix⟩

theorem Agrees.mono {α : Type} {takes takes' : List Char → List Char → Prop} {taken : Except Fault (α × List Char)}
    (h : Agrees takes left taken) (hnext : ∀ behind, takes left behind → takes' left behind) :
    Agrees takes' left taken := by
  cases taken with
  | error fault => exact h.error List.suffix_rfl
  | ok taken => exact hnext taken.2 h

theorem Agrees.bind {α β : Type} {takes takes' : List Char → List Char → Prop} {taken : Except Fault (α × List Char)}
    {next : α × List Char → Except Fault (β × List Char)} (h : Agrees takes rest taken) (hsuffix : rest <:+ left)
    (hnext : ∀ a behind, takes rest behind → Agrees takes' left (next (a, behind))) :
    Agrees takes' left (taken >>= next) := by
  cases taken with
  | error fault => exact h.error hsuffix
  | ok taken => exact hnext taken.1 taken.2 h

theorem Agrees.map {α β : Type} {takes takes' : List Char → List Char → Prop} {taken : Except Fault (α × List Char)}
    {f : α × List Char → β × List Char} (h : Agrees takes rest taken) (hsuffix : rest <:+ left)
    (hf : ∀ taken, (f taken).2 = taken.2) (hnext : ∀ behind, takes rest behind → takes' left behind) :
    Agrees takes' left (f <$> taken) := by
  cases taken with
  | error fault => exact h.error hsuffix
  | ok taken =>
    show takes' left (f taken).2
    rw [hf]
    exact hnext taken.2 h

theorem spaces_skipSpace (left : List Char) : Spaces left (skipSpace left) := by
  induction left with
  | nil => exact .none
  | cons c left ih =>
    by_cases hc : isSpace c = true
    · rw [skipSpace, List.dropWhile_cons_of_pos hc]
      exact .cons hc ih
    · rw [skipSpace, List.dropWhile_cons_of_neg hc]
      exact .none

theorem digits_dropWhile (h : left.takeWhile Char.isDigit ≠ []) : Digits left (left.dropWhile Char.isDigit) := by
  induction left with
  | nil => exact absurd rfl h
  | cons c left ih =>
    by_cases hc : c.isDigit = true
    · rw [List.dropWhile_cons_of_pos hc]
      by_cases hleft : left.takeWhile Char.isDigit = []
      · have hdrop := List.takeWhile_append_dropWhile (p := Char.isDigit) (l := left)
        rw [hleft, List.nil_append] at hdrop
        rw [hdrop]
        exact .last hc
      · exact .cons hc (ih hleft)
    · rw [List.takeWhile_cons_of_neg hc] at h
      exact absurd rfl h

theorem whole_takeWhole (h : (takeWhole left).1 ≠ []) : Whole left (takeWhole left).2 := by
  unfold takeWhole at h ⊢
  split at h
  · exact .zero
  · rename_i hzero
    cases left with
    | nil => exact absurd rfl h
    | cons c left => exact .digits (fun hc => hzero left (by rw [hc])) (digits_dropWhile h)

theorem takeWhole_run (left : List Char) :
    (takeWhole left).1 <+: left ∧ ∀ c ∈ (takeWhole left).1, c.isDigit = true := by
  unfold takeWhole
  split
  · exact ⟨⟨_, rfl⟩, by simp⟩
  · exact ⟨List.takeWhile_prefix _, List.all_eq_true.mp List.all_takeWhile⟩

theorem fraction_takeFraction (left : List Char) : Fraction left (takeFraction left).2 := by
  unfold takeFraction
  split
  · dsimp only
    split
    · exact .none
    · rename_i rest hsome
      exact .digits (digits_dropWhile fun h => hsome (List.isEmpty_iff.mpr h))
  · exact .none

theorem exponent_digits {mark : Char}
    (h : ((mark = 'e' || mark = 'E') && !(left.takeWhile Char.isDigit).isEmpty) = true) :
    (mark = 'e' ∨ mark = 'E') ∧ Digits left (left.dropWhile Char.isDigit) := by
  simp only [Bool.and_eq_true, Bool.or_eq_true, decide_eq_true_eq, Bool.not_eq_true', List.isEmpty_eq_false_iff] at h
  exact ⟨h.1, digits_dropWhile h.2⟩

theorem exponent_takeExponent (left : List Char) : Exponent left (takeExponent left).2 := by
  unfold takeExponent
  split
  · dsimp only
    split
    · split
      · rename_i h
        exact .signed (exponent_digits h).1 (.inr rfl) (exponent_digits h).2
      · exact .none
    · split
      · rename_i h
        exact .signed (exponent_digits h).1 (.inl rfl) (exponent_digits h).2
      · exact .none
    · split
      · rename_i h
        exact .plain (exponent_digits h).1 (exponent_digits h).2
      · exact .none
  · exact .none

theorem takeSign_cases (left : List Char) : (takeSign left).2 = left ∨ left = '-' :: (takeSign left).2 := by
  unfold takeSign
  split
  · exact .inr rfl
  · exact .inl rfl

theorem takeSign_suffix (left : List Char) : (takeSign left).2 <:+ left := by
  obtain h | h := takeSign_cases left
  · exact ⟨[], h⟩
  · exact h ▸ List.suffix_cons _ _

theorem agrees_readNumber (left : List Char) : Agrees Numeral left (readNumber left) := by
  unfold readNumber
  dsimp only
  split
  · trivial
  · rename_i hwhole
    have hmagnitude : Magnitude (takeSign left).2
        (takeExponent (takeFraction (takeWhole (takeSign left).2).2).2).2 :=
      ⟨whole_takeWhole fun h => hwhole (List.isEmpty_iff.mpr h), fraction_takeFraction _, exponent_takeExponent _⟩
    have hnumeral : Numeral left (takeExponent (takeFraction (takeWhole (takeSign left).2).2).2).2 := by
      generalize (takeExponent (takeFraction (takeWhole (takeSign left).2).2).2).2 = rest at hmagnitude ⊢
      obtain h | h := takeSign_cases left
      · rw [h] at hmagnitude
        exact .positive hmagnitude
      · rw [h]
        exact .negative hmagnitude
    split
    · rename_i hexponent
      rw [hexponent] at hnumeral
      split
      · rename_i hlong
        obtain ⟨hrun, hdigits⟩ := takeWhole_run (takeSign left).2
        exact ⟨hlong, _, hrun.isInfix.trans (takeSign_suffix left).isInfix, rfl, hdigits⟩
      · exact hnumeral
    · rename_i hexponent _
      rw [hexponent] at hnumeral
      exact hnumeral

theorem agrees_readScalar (left : List Char) : Agrees Part.value.Takes left (readScalar left) := by
  unfold readScalar
  split
  · rename_i taken hword
    obtain ⟨⟨word, v⟩, hmem, hmatch⟩ := List.exists_of_findSome?_eq_some hword
    obtain ⟨rest, hrest, rfl⟩ := Option.map_eq_some_iff.mp hmatch
    rw [← List.append_eq_of_isPrefixOf?_eq_some hrest]
    exact .word hmem
  · exact (agrees_readNumber left).mono fun _ h => .numeral h

/-! ### Texts -/

/-- What an escape of a code comes to: if it takes more than its own digits, then another such escape follows. -/
theorem joinEscape_cases (n : Nat) (after : List Char) :
    (∃ problem place, joinEscape n after = .error (.stop problem place)) ∨ (∃ e, joinEscape n after = .ok (e, 5)) ∨
      ∃ e a b c d m more, joinEscape n after = .ok (e, 11) ∧ hexNumber? a b c d = some m ∧
        after = '\\' :: 'u' :: a :: b :: c :: d :: more := by
  unfold joinEscape
  split
  · rename_i a b c d next more _
    split
    · exact .inl ⟨_, _, rfl⟩
    · rename_i m hm
      split
      · exact .inr (.inr ⟨_, a, b, c, d, m, next :: more, rfl, hm, rfl⟩)
      · exact .inr (.inl ⟨_, rfl⟩)
  · exact .inr (.inl ⟨_, rfl⟩)

theorem readEscape_cases (letter : Char) (more : List Char) :
    (∃ problem place, readEscape letter more = .error (.stop problem place)) ∨
      ∃ e length, readEscape letter more = .ok (e, length) ∧
        ∀ rest, Quoted ((letter :: more).drop length) rest → Quoted ('\\' :: letter :: more) rest := by
  unfold readEscape
  split
  · rename_i hcode
    subst hcode
    split
    · rename_i a b c d next after
      split
      · exact .inl ⟨_, _, rfl⟩
      · rename_i n hn
        obtain ⟨problem, place, hjoin⟩ | ⟨e, hjoin⟩ | ⟨e, a', b', c', d', m, more, hjoin, hm, hafter⟩ :=
          joinEscape_cases n (next :: after)
        · exact .inl ⟨problem, place, hjoin⟩
        · exact .inr ⟨e, 5, hjoin, fun rest h => .code hn h⟩
        · rw [hafter] at hjoin ⊢
          exact .inr ⟨e, 11, hjoin, fun rest h => .code hn (.code hm h)⟩
    · exact .inl ⟨_, _, rfl⟩
  · split
    · exact .inl ⟨_, _, rfl⟩
    · rename_i c hc
      exact .inr ⟨c, 1, rfl, fun rest h => .escape hc h⟩

theorem agrees_readText (opening : List Char) (skipped : Nat) (left : List Char) :
    Agrees Quoted (left.drop skipped) (readText opening skipped left) := by
  induction left generalizing skipped with
  | nil => exact trivial
  | cons c left ih =>
    cases skipped with
    | succ skipped => exact ih skipped
    | zero =>
      rw [readText.eq_def, List.drop_zero]
      dsimp only
      split
      · rename_i hquote
        exact hquote ▸ .close
      · rename_i hquote
        split
        · rename_i hbackslash
          subst hbackslash
          cases left with
          | nil => trivial
          | cons letter more =>
            obtain ⟨problem, place, hescape⟩ | ⟨e, length, hescape, hnext⟩ := readEscape_cases letter more
            · simp only [hescape]
              trivial
            · simp only [hescape]
              exact (ih length).map ((List.drop_suffix _ _).trans (List.suffix_cons _ _)) (fun _ => rfl) hnext
        · rename_i hbackslash
          split
          · trivial
          · rename_i hc
            exact (ih 0).map (List.suffix_cons _ _) (fun _ => rfl)
              (fun behind h => .plain hquote hbackslash (Nat.lt_of_not_le hc) h)

/-! ### Values -/

mutual

theorem agrees_readValue : ∀ (parts : Nat) (left : List Char), Agrees Part.value.Takes left (readValue parts left)
  | 0, _ => trivial
  | parts + 1, left => by
    rw [readValue.eq_def]
    dsimp only
    split
    · exact (agrees_readText _ 0 _).map (List.suffix_cons _ _) (fun _ => rfl) (fun _ h => .text h)
    · rename_i rest
      have hopen := spaces_skipSpace rest
      split
      · rename_i hclose
        exact .emptyObject (hclose ▸ hopen)
      · exact (agrees_readFields parts _).map (hopen.suffix.trans (List.suffix_cons _ _)) (fun _ => rfl)
          (fun _ h => .object hopen h)
    · rename_i rest
      have hopen := spaces_skipSpace rest
      split
      · rename_i hclose
        exact .emptyArray (hclose ▸ hopen)
      · exact (agrees_readItems parts _).map (hopen.suffix.trans (List.suffix_cons _ _)) (fun _ => rfl)
          (fun _ h => .array hopen h)
    · exact agrees_readScalar left

theorem agrees_readItems : ∀ (parts : Nat) (left : List Char), Agrees Part.items.Takes left (readItems parts left)
  | 0, _ => trivial
  | parts + 1, left => by
    rw [readItems]
    refine (agrees_readValue parts left).bind List.suffix_rfl fun item behind hitem => ?_
    have hspaces := spaces_skipSpace behind
    dsimp only
    split
    · rename_i hclose
      exact .lastItem hitem (hclose ▸ hspaces)
    · rename_i next hcomma
      rw [hcomma] at hspaces
      have hopen := spaces_skipSpace next
      have hleft := hopen.suffix.trans (hspaces.suffix_tail.trans hitem.suffix)
      exact (agrees_readItems parts _).bind hleft fun items rest hitems => .item hitem hspaces hopen hitems
    · trivial

theorem agrees_readFields : ∀ (parts : Nat) (left : List Char), Agrees Part.fields.Takes left (readFields parts left)
  | 0, _ => trivial
  | parts + 1, left => by
    rw [readFields.eq_def]
    dsimp only
    split
    · rename_i rest
      refine (agrees_readText _ 0 rest).bind (List.suffix_cons _ _) fun name afterName hname => ?_
      have hcolon := spaces_skipSpace afterName
      dsimp only
      split
      · rename_i afterColon heq
        rw [heq] at hcolon
        have hopen := spaces_skipSpace afterColon
        have hinner : skipSpace afterColon <:+ '"' :: rest :=
          hopen.suffix.trans (hcolon.suffix_tail.trans (hname.suffix.trans (List.suffix_cons _ _)))
        refine (agrees_readValue parts _).bind hinner fun v behind hvalue => ?_
        have hspaces := spaces_skipSpace behind
        dsimp only
        split
        · rename_i hclose
          exact .lastField hname hcolon hopen hvalue (hclose ▸ hspaces)
        · rename_i next hcomma
          rw [hcomma] at hspaces
          have hnext := spaces_skipSpace next
          have hleft := hnext.suffix.trans (hspaces.suffix_tail.trans (hvalue.suffix.trans hinner))
          exact (agrees_readFields parts _).bind hleft fun fields rest hfields =>
            .field hname hcolon hopen hvalue hspaces hnext hfields
        · trivial
      · trivial
    · trivial

end

/-- A text that is read is a document, and a text is refused for digits only if too many of them stand in a row. -/
theorem readWhole_agrees (text : List Char) :
    match readWhole text with
    | .ok _ => IsDocument text
    | .error (.tooManyDigits count) => Decimal.maxDigits < count ∧ HasDigits count text
    | .error (.stop ..) => True := by
  have hopen := spaces_skipSpace text
  have hvalue := agrees_readValue (2 * text.length + 2) (skipSpace text)
  rw [readWhole]
  by_cases hmark : text.head? = some '\ufeff'
  · rw [if_pos hmark]
    trivial
  rw [if_neg hmark]
  cases hread : readValue (2 * text.length + 2) (skipSpace text) with
  | error fault =>
    rw [hread] at hvalue
    cases fault with
    | stop => trivial
    | tooManyDigits count => exact ⟨hvalue.1, hvalue.2.of_suffix hopen.suffix⟩
  | ok taken =>
    obtain ⟨v, behind⟩ := taken
    rw [hread] at hvalue
    have hbehind := spaces_skipSpace behind
    dsimp only [bind, Except.bind]
    cases hskip : skipSpace behind with
    | nil => exact ⟨skipSpace text, behind, hopen, hvalue, hskip ▸ hbehind⟩
    | cons => trivial

end ServiceMap.Json
