import ServiceMap.Text.Blank
import ServiceMap.Text.LetterCase

/-!
# Lower case twice

A text in lower case stays as it is when it is put into lower case again. Every character of such a text is settled: it
is its own lower-case form whatever stands around it. For the characters with a form of their own this is a property of
the table, which is checked run by run: the forms of a run lie where no run has a character. In the same way no character
becomes blank, so a text without blanks at its ends has none there in lower case.
-/

namespace ServiceMap.Text

/-- Characters `first, …, last`, all of them or every second one, lie before the run, or after it, or between its
characters. -/
def CaseRun.avoids (run : CaseRun) (first last : Nat) (isSparse : Bool) : Bool :=
  Nat.blt last run.first || Nat.blt run.last first ||
    (run.step == 2 && isSparse && (first + run.first) % 2 == 1)

/-- The first and the last one of the lower-case forms of the run. -/
def CaseRun.ends (run : CaseRun) : Nat × Nat := ((run.first + run.shift).toNat, (run.last + run.shift).toNat)

/-- The lower-case forms of the run are characters that have no lower-case form of their own. -/
def CaseRun.isSettled (run : CaseRun) : Bool :=
  match run.ends with
  | (first, last) =>
    decide (0 ≤ run.first + run.shift) && (Nat.blt last 0xd800 || Nat.blt 0xdfff first && Nat.blt last 0x110000) &&
      (⟨0x130, 0x130, 1, 0⟩ : CaseRun).avoids first last false &&
      lowerRuns.all (·.avoids first last (run.step == 2 || run.first == run.last))

theorem isSettled_of_mem_lowerRuns : ∀ run ∈ lowerRuns, run.isSettled = true := by
  rw [← List.all_eq_true]
  decide +kernel

/-- The character is its own lower-case form, whatever stands around it. -/
def IsSettled (c : Char) : Prop := c ≠ 'Σ' ∧ lowerChar c = [c]

instance (c : Char) : Decidable (IsSettled c) := inferInstanceAs (Decidable (_ ∧ _))

theorem CaseRun.covers_iff {run : CaseRun} {c : Char} : run.covers c = true ↔
    run.first ≤ c.toNat ∧ c.toNat ≤ run.last ∧ (c.toNat - run.first) % run.step = 0 := by
  simp [covers, and_assoc]

theorem CaseRun.covers_eq_false_of_avoids {run : CaseRun} {first last : Nat} {isSparse : Bool}
    (havoids : run.avoids first last isSparse = true) {c : Char} (hfirst : first ≤ c.toNat) (hlast : c.toNat ≤ last)
    (hsparse : isSparse = true → (c.toNat - first) % 2 = 0) : run.covers c = false := by
  rw [← Bool.not_eq_true, covers_iff]
  rintro ⟨hafter, hbefore, hstep⟩
  simp only [avoids, Bool.or_eq_true, Bool.and_eq_true, Nat.blt_eq, beq_iff_eq] at havoids
  rcases havoids with (hout | hout) | ⟨⟨htwo, hmarked⟩, hparity⟩
  · omega
  · omega
  · have heven := hsparse hmarked
    rw [htwo] at hstep
    omega

theorem isSettled_of_not_covered {c : Char} (hI : c ≠ 'İ') (hout : ∀ run ∈ lowerRuns, run.covers c = false) :
    IsSettled c := by
  have hfind : lowerRuns.find? (·.covers c) = none := List.find?_eq_none.mpr fun run hrun => by simp [hout run hrun]
  refine ⟨?_, by rw [lowerChar, if_neg hI, hfind]⟩
  rintro rfl
  exact absurd hfind (by decide)

/-- The number of a lower-case form lies as far away as the run says. -/
theorem CaseRun.toNat_form {run : CaseRun} (hrun : run ∈ lowerRuns) {c : Char} (hc : run.covers c = true) :
    0 ≤ run.first + run.shift ∧ (Char.ofNat (c.toNat + run.shift).toNat).toNat = (c.toNat + run.shift).toNat := by
  have hsettled := isSettled_of_mem_lowerRuns run hrun
  simp only [isSettled, ends, Bool.and_eq_true, Bool.or_eq_true, decide_eq_true_eq, Nat.blt_eq] at hsettled
  obtain ⟨⟨⟨hnat, hvalid⟩, -⟩, -⟩ := hsettled
  obtain ⟨hfirst, hlast, -⟩ := covers_iff.mp hc
  have hscalar : (c.toNat + run.shift).toNat.isValidChar := by
    rcases hvalid with hlow | ⟨hlow, hhigh⟩
    · exact .inl (by omega)
    · exact .inr ⟨by omega, by omega⟩
  refine ⟨hnat, ?_⟩
  rw [Char.ofNat, dif_pos hscalar]
  rfl

/-- The lower-case form of a character with one of its own is settled. -/
theorem isSettled_of_covers {run : CaseRun} (hrun : run ∈ lowerRuns) {c : Char} (hc : run.covers c = true) :
    IsSettled (Char.ofNat (c.toNat + run.shift).toNat) := by
  have hsettled := isSettled_of_mem_lowerRuns run hrun
  simp only [CaseRun.isSettled, CaseRun.ends, Bool.and_eq_true, List.all_eq_true] at hsettled
  obtain ⟨⟨-, hdot⟩, havoids⟩ := hsettled
  obtain ⟨hfirst, hlast, hstep⟩ := CaseRun.covers_iff.mp hc
  obtain ⟨hnat, hnumber⟩ := CaseRun.toNat_form hrun hc
  have hsparse : (run.step == 2 || run.first == run.last) = true →
      ((Char.ofNat (c.toNat + run.shift).toNat).toNat - (run.first + run.shift).toNat) % 2 = 0 := by
    rw [hnumber, Bool.or_eq_true, beq_iff_eq, beq_iff_eq]
    rintro (htwo | hone)
    · rw [htwo] at hstep
      omega
    · omega
  refine isSettled_of_not_covered ?_ fun other hother =>
    CaseRun.covers_eq_false_of_avoids (havoids other hother) (by omega) (by omega) hsparse
  intro hI
  have hout := CaseRun.covers_eq_false_of_avoids (c := 'İ') hdot (by rw [← hI]; omega) (by rw [← hI]; omega) (by simp)
  exact absurd hout (by decide)

theorem isSettled_of_mem_lowerChar {c d : Char} (hc : c ≠ 'Σ') (hd : d ∈ lowerChar c) : IsSettled d := by
  rw [lowerChar] at hd
  split at hd
  · simp only [List.mem_cons, List.not_mem_nil, or_false] at hd
    rcases hd with rfl | rfl
    · decide
    · decide
  · rename_i hI
    cases hfind : lowerRuns.find? (·.covers c) with
    | some run =>
      rw [hfind] at hd
      rw [List.mem_singleton.mp hd]
      have hcovers : run.covers c = true := by simpa using List.find?_some hfind
      exact isSettled_of_covers (List.mem_of_find?_eq_some hfind) hcovers
    | none =>
      rw [hfind] at hd
      rw [List.mem_singleton.mp hd]
      exact ⟨hc, by rw [lowerChar, if_neg hI, hfind]⟩

theorem isSettled_of_mem_lowerAfter {before text : List Char} {c : Char} (hc : c ∈ lowerAfter before text) :
    IsSettled c := by
  induction text generalizing before with
  | nil => exact absurd hc List.not_mem_nil
  | cons d rest ih =>
    rw [lowerAfter] at hc
    split at hc
    · rcases List.mem_cons.mp hc with rfl | hc
      · split <;> decide
      · exact ih hc
    · rename_i hd
      rcases List.mem_append.mp hc with hc | hc
      · exact isSettled_of_mem_lowerChar hd hc
      · exact ih hc

theorem lowerAfter_of_isSettled {before text : List Char} (h : ∀ c ∈ text, IsSettled c) :
    lowerAfter before text = text := by
  induction text generalizing before with
  | nil => rfl
  | cons c rest ih =>
    obtain ⟨hsigma, hlower⟩ := h c List.mem_cons_self
    rw [lowerAfter, if_neg hsigma, hlower, ih fun d hd => h d (List.mem_cons_of_mem _ hd)]
    rfl

theorem lowerChar_ne_nil (c : Char) : lowerChar c ≠ [] := by
  rw [lowerChar]
  split
  · exact List.cons_ne_nil _ _
  · split <;> exact List.cons_ne_nil _ _

/-- A text that says something does so in lower case. -/
theorem lower_ne_empty {text : String} (h : text ≠ "") : lower text ≠ "" := by
  obtain ⟨c, rest, htext⟩ := List.exists_cons_of_ne_nil fun hnil => h (String.toList_eq_nil_iff.mp hnil)
  intro hlower
  have hnil : lowerAfter [] text.toList = [] := by
    rw [← String.toList_ofList (l := lowerAfter [] text.toList)]
    exact congrArg String.toList hlower
  rw [htext, lowerAfter] at hnil
  split at hnil
  · exact List.cons_ne_nil _ _ hnil
  · exact lowerChar_ne_nil c (List.append_eq_nil_iff.mp hnil).1

theorem lower_lower (text : String) : lower (lower text) = lower text := by
  simp only [lower, String.toList_ofList]
  rw [lowerAfter_of_isSettled fun c hc => isSettled_of_mem_lowerAfter hc]

/-! ### Blanks at the ends -/

/-- The ranges of blank characters. -/
def blankRanges : List (Nat × Nat) :=
  [(0x09, 0x0d), (0x1c, 0x20), (0x85, 0x85), (0xa0, 0xa0), (0x1680, 0x1680), (0x2000, 0x200a), (0x2028, 0x2029),
   (0x202f, 0x202f), (0x205f, 0x205f), (0x3000, 0x3000)]

theorem isBlank_iff {c : Char} : isBlank c = true ↔ ∃ range ∈ blankRanges, range.1 ≤ c.toNat ∧ c.toNat ≤ range.2 := by
  simp [isBlank, blankRanges]
  omega

/-- None of the lower-case forms of the run is blank. -/
def CaseRun.avoidsBlanks (run : CaseRun) : Bool :=
  blankRanges.all fun range => Nat.blt run.ends.2 range.1 || Nat.blt range.2 run.ends.1

theorem avoidsBlanks_of_mem_lowerRuns : ∀ run ∈ lowerRuns, run.avoidsBlanks = true := by
  rw [← List.all_eq_true]
  decide +kernel

/-- The lower-case form of a character with one of its own is not blank. -/
theorem isBlank_of_covers {run : CaseRun} (hrun : run ∈ lowerRuns) {c : Char} (hc : run.covers c = true) :
    isBlank (Char.ofNat (c.toNat + run.shift).toNat) = false := by
  rw [← Bool.not_eq_true, isBlank_iff]
  rintro ⟨range, hrange, hfirst, hlast⟩
  obtain ⟨hafter, hbefore, -⟩ := CaseRun.covers_iff.mp hc
  obtain ⟨hnat, hnumber⟩ := CaseRun.toNat_form hrun hc
  have hout := List.all_eq_true.mp (avoidsBlanks_of_mem_lowerRuns run hrun) range hrange
  simp only [CaseRun.ends, Bool.or_eq_true, Nat.blt_eq] at hout
  omega

theorem isBlank_of_mem_lowerChar {c d : Char} (hc : isBlank c = false) (hd : d ∈ lowerChar c) : isBlank d = false := by
  rw [lowerChar] at hd
  split at hd
  · simp only [List.mem_cons, List.not_mem_nil, or_false] at hd
    rcases hd with rfl | rfl <;> decide
  · split at hd
    · rename_i run hfind
      rw [List.mem_singleton.mp hd]
      exact isBlank_of_covers (List.mem_of_find?_eq_some hfind) (by simpa using List.find?_some hfind)
    · rwa [List.mem_singleton.mp hd]

/-- The text has no blanks at its ends. -/
structure IsTrimmed (text : List Char) : Prop where
  front : ∀ c ∈ text.head?, isBlank c = false
  back : ∀ c ∈ text.getLast?, isBlank c = false

theorem isTrimmed_trimOf (text : List Char) : IsTrimmed (trimOf isBlank text) := by
  have hfront : ∀ l : List Char, ∀ c ∈ (l.dropWhile isBlank).head?, isBlank c = false := by
    intro l c hc
    have hhead := List.head?_dropWhile_not isBlank l
    rwa [Option.mem_def.mp hc] at hhead
  constructor
  · -- When the blanks at the back go, the front stays as the first pass left it.
    intro c hc
    rw [trimOf, List.head?_reverse, Option.mem_def] at hc
    obtain ⟨blanks, hblanks⟩ := List.dropWhile_suffix isBlank (l := (text.dropWhile isBlank).reverse)
    have hhead : (text.dropWhile isBlank).head? = some c := by
      rw [← List.getLast?_reverse, ← hblanks, List.getLast?_append, hc, Option.some_or]
    exact hfront text c hhead
  · intro c hc
    rw [trimOf, List.getLast?_reverse] at hc
    exact hfront _ c hc

/-- A character becomes one or more in front of the rest, and none of them is blank unless it was. -/
theorem exists_lowerAfter_cons (before rest : List Char) (c : Char) : ∃ form, form ≠ [] ∧
    (isBlank c = false → ∀ d ∈ form, isBlank d = false) ∧
    lowerAfter before (c :: rest) = form ++ lowerAfter (c :: before) rest := by
  rw [lowerAfter]
  split
  · refine ⟨[if endsWord before rest then 'ς' else 'σ'], List.cons_ne_nil _ _, fun _ d hd => ?_, rfl⟩
    rw [List.mem_singleton.mp hd]
    split <;> decide
  · exact ⟨lowerChar c, lowerChar_ne_nil c, fun hc d hd => isBlank_of_mem_lowerChar hc hd, rfl⟩

/-- A text without blanks at its ends has none there in lower case. -/
theorem IsTrimmed.lowerAfter {text : List Char} (h : IsTrimmed text) (before : List Char) :
    IsTrimmed (lowerAfter before text) where
  front := by
    cases text with
    | nil => exact h.front
    | cons c rest =>
      obtain ⟨form, hform, hblank, heq⟩ := exists_lowerAfter_cons before rest c
      obtain ⟨d, form, rfl⟩ := List.exists_cons_of_ne_nil hform
      intro e he
      rw [heq, List.cons_append, List.head?_cons, Option.mem_some_iff] at he
      exact he ▸ hblank (h.front c rfl) d List.mem_cons_self
  back := by
    replace h := h.back
    induction text generalizing before with
    | nil => exact h
    | cons c rest ih =>
      obtain ⟨form, hform, hblank, heq⟩ := exists_lowerAfter_cons before rest c
      rw [heq, List.getLast?_append]
      cases rest with
      | nil =>
        intro d hd
        exact hblank (h c rfl) d (List.mem_of_getLast? (by simpa [Text.lowerAfter] using hd))
      | cons c' rest =>
        obtain ⟨form', hform', -, heq'⟩ := exists_lowerAfter_cons (c :: before) rest c'
        have hne : Text.lowerAfter (c :: before) (c' :: rest) ≠ [] :=
          heq' ▸ List.append_ne_nil_of_left_ne_nil hform' _
        rw [List.getLast?_eq_some_getLast hne, Option.some_or, ← List.getLast?_eq_some_getLast hne]
        exact ih (c :: before) h

end ServiceMap.Text
