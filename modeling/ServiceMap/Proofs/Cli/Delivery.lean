import ServiceMap.Cli.Run
import ServiceMap.Proofs.Link.Report
import ServiceMap.Proofs.Storage.Feed

/-!
# What a run that does not succeed leaves behind

The inputs are read and the report is put into words before the output is touched, so whatever goes wrong up to there
leaves all files as they were and shows no report. Only the summary comes later, and only one thing can go wrong in it:
the calls or the errors of all links together may be too many to be written, though those of each link are not. Then the
run fails behind a report that it has delivered in full.
-/

namespace ServiceMap.Cli

variable {outcome written : Outcome} {command : Command} {product : Product} {output report : String} {files : Files}
  {words : List String} {standardInput : StandardInput}

/-! ### Failures -/

theorem exists_of_bind_eq_ok {α β : Type} {first : Except Failure α} {next : α → Except Failure β} {b : β}
    (h : first >>= next = .ok b) : ∃ a, first = .ok a ∧ next a = .ok b := by
  cases first with
  | error e => cases h
  | ok a => exact ⟨a, rfl, h⟩

@[simp] theorem Outcome.failed_files (outcome : Outcome) (e : Failure) : (outcome.failed e).files = outcome.files := by
  unfold failed
  split <;> rfl

@[simp] theorem Outcome.failed_output (outcome : Outcome) (e : Failure) :
    (outcome.failed e).output = outcome.output := by
  unfold failed
  split <;> rfl

/-! ### The summary -/

def totalCallsOf (links : List Link) : Nat := links.foldl (fun total link => total + link.calls) 0

def totalErrorsOf (links : List Link) : Nat := links.foldl (fun total link => total + link.errors) 0

/-- The calls or the errors of all links together are too many to be written. -/
def HasLongTotal (links : List Link) : Prop :=
  Decimal.tooLong (totalCallsOf links) ∨ Decimal.tooLong (totalErrorsOf links)

theorem countText_of_tooLong {n : Nat} (h : Decimal.tooLong n = true) : countText n = .error .tooLongToWrite := if_pos h

theorem countText_of_not_tooLong {n : Nat} (h : ¬ Decimal.tooLong n = true) : countText n = .ok (Decimal.text n) :=
  if_neg h

/-- A summary fails for one reason only. -/
theorem summaryLine_cases (output : String) (product : Product) :
    HasLongTotal product.links ∧ summaryLine output product = .error .tooLongToWrite ∨
      ¬ HasLongTotal product.links ∧ ∃ line, summaryLine output product = .ok line := by
  rw [HasLongTotal, totalCallsOf, totalErrorsOf, summaryLine]
  by_cases hcalls : Decimal.tooLong (product.links.foldl (fun total link => total + link.calls) 0 : Nat)
  · rw [countText_of_tooLong hcalls]
    exact .inl ⟨.inl hcalls, rfl⟩
  · rw [countText_of_not_tooLong hcalls]
    by_cases herrors : Decimal.tooLong (product.links.foldl (fun total link => total + link.errors) 0 : Nat)
    · rw [countText_of_tooLong herrors]
      exact .inl ⟨.inr herrors, rfl⟩
    · rw [countText_of_not_tooLong herrors]
      exact .inr ⟨not_or.mpr ⟨hcalls, herrors⟩, _, rfl⟩

/-! ### Delivery -/

/-- The output has a report, and nothing else has changed: the standard output if it is a dash, else the file of that
name. -/
def Delivers (files : Files) (output report : String) (outcome : Outcome) : Prop :=
  if output = "-" then outcome.files = files ∧ outcome.output = report
  else files.write output report.toUTF8.toList = .ok outcome.files ∧ outcome.output = ""

theorem delivers_written (hquiet : outcome.output = "") (h : outcome.written output report = .ok written) :
    Delivers outcome.files output report written ∧ written.ending = outcome.ending := by
  rw [Outcome.written] at h
  rw [Delivers]
  split at h
  · rename_i hdash
    rw [if_pos hdash, ← Except.ok.inj h, hquiet]
    exact ⟨⟨rfl, String.empty_append⟩, rfl⟩
  · rename_i hdash
    obtain ⟨files, hwrite, hfiles⟩ := exists_of_bind_eq_ok h
    rw [if_neg hdash, ← Except.ok.inj hfiles]
    exact ⟨⟨hwrite, hquiet⟩, rfl⟩

theorem writeLinks_eq_ok {links : List Link} (hquiet : outcome.output = "")
    (h : writeLinks outcome command links = .ok (written, output)) :
    command.output = some output ∧ ∃ report, Report.write links = .ok report ∧
      Delivers outcome.files output (report ++ "\n") written ∧ written.ending = outcome.ending := by
  obtain ⟨report, hreport, h⟩ := exists_of_bind_eq_ok h
  cases houtput : command.output with
  | none =>
    rw [houtput] at h
    cases h
  | some name =>
    rw [houtput] at h
    obtain ⟨delivered, hwritten, h⟩ := exists_of_bind_eq_ok h
    obtain ⟨rfl, rfl⟩ := Prod.mk.inj (Except.ok.inj h)
    exact ⟨rfl, report, hreport, delivers_written hquiet hwritten⟩

/-- Nothing has changed, and nothing but this text was shown on the standard output. -/
structure Untouched (files : Files) (shown : String) (outcome : Outcome) : Prop where
  files : outcome.files = files
  output : outcome.output = shown

/-- The links were delivered as a report, and then the summary failed. -/
structure FailsBehindReport (files : Files) (links : List Link) (output report : String) (outcome : Outcome) : Prop where
  written : Report.write links = .ok report
  delivered : Delivers files output (report ++ "\n") outcome
  tooLong : HasLongTotal links
  ending : outcome.ending = .exit 1

/-- What a failed outcome delivers is what was delivered before. -/
theorem Delivers.failed (h : Delivers files output report outcome) (e : Failure) :
    Delivers files output report (outcome.failed e) := by
  rwa [Delivers, Outcome.failed_files, Outcome.failed_output]

@[simp] theorem Outcome.summarised_ending (outcome : Outcome) (output line : String) :
    (outcome.summarised output line).ending = outcome.ending := by
  unfold summarised
  split <;> rfl

theorem finish_cases (command : Command) (product : Product) (hfiles : outcome.files = files)
    (hquiet : outcome.output = "") (hexit : outcome.ending = .exit 0) :
    Untouched files "" (finish outcome command product) ∨
      (∃ output report, command.output = some output ∧
        FailsBehindReport files product.links output report (finish outcome command product)) ∨
      (finish outcome command product).ending = .exit 0 := by
  subst hfiles
  rw [finish]
  split
  · rename_i e _
    exact .inl ⟨outcome.failed_files e, (outcome.failed_output e).trans hquiet⟩
  · rename_i written output hwritten
    obtain ⟨houtput, report, hreport, hdelivers, hending⟩ := writeLinks_eq_ok hquiet hwritten
    obtain ⟨hlong, hline⟩ | ⟨-, line, hline⟩ := summaryLine_cases output product
    · rw [hline]
      exact .inr (.inl ⟨output, report, houtput, hreport, hdelivers.failed _, hlong, rfl⟩)
    · rw [hline]
      exact .inr (.inr ((Outcome.summarised_ending written output line).trans (hending.trans hexit)))

/-! ### Merging what comes in -/

/-- A report on the standard input is read as it is, if it is ASCII and its lines end in line feeds. -/
theorem readReport_standardInput {text : String} (hascii : Text.IsAscii text.toList) (hends : '\r' ∉ text.toList) :
    readReport files (.standardInput text) = Report.readText text := by
  have hfeed : (feedOf files (.standardInput text) >>= Feed.wholeText) = .ok text.toList :=
    Feed.wholeText_ofBytes hascii hends
  rw [readReport, hfeed]
  dsimp only
  rw [String.ofList_toList]

/-- A report on the standard input is read as it is written. -/
theorem readReport_textOf {links : List Link} (hsound : ∀ link ∈ links, link.IsSound)
    (hshort : ∀ link ∈ links, Report.hasLongCount link.toRecord = false) :
    readReport files (.standardInput (Report.textOf links)) = .quiet (.ok links) := by
  have hprintable : Text.IsPrintable (Report.textOf links).toList := by
    rw [Report.textOf, String.toList_ofList]
    exact Json.isPrintable_compact _
  rw [readReport_standardInput hprintable.isAscii (hprintable.not_mem (by decide)), Report.readText_textOf hsound hshort]

/-- The merging of the report on the standard input. -/
def mergeInput : Command := { action := .merge, inputs := ["-"], output := some "-" }

theorem ofLine_mergeInput : Request.ofLine ["merge", "-", "-o", "-"] = .run mergeInput := by decide +kernel

theorem produce_mergeInput {result : Except Failure (List Link)}
    (h : readReport files (.standardInput standardInput) = .quiet result) :
    produce files standardInput mergeInput = .quiet (do
      let links ← result
      return { links := ← Tally.merge [links], source := "1 reports" }) := by
  have hsources : sourcesOf standardInput ["-"] = [.standardInput standardInput] := rfl
  rw [produce, mergeInput]
  dsimp only
  rw [hsources, Reading.each, h]
  cases result <;> rfl

theorem finish_of_hasLongTotal (houtput : command.output = some "-") (hlong : HasLongTotal product.links)
    (hshort : ∀ link ∈ product.links, Report.hasLongCount link.toRecord = false) :
    (finish outcome command product).ending = .exit 1 ∧
      (finish outcome command product).output = outcome.output ++ (Report.textOf product.links ++ "\n") := by
  have hline : summaryLine "-" product = .error .tooLongToWrite := by
    obtain ⟨-, hline⟩ | ⟨hnot, -⟩ := summaryLine_cases "-" product
    · exact hline
    · exact absurd hlong hnot
  have hwritten : writeLinks outcome command product.links =
      .ok ({ outcome with output := outcome.output ++ (Report.textOf product.links ++ "\n") }, "-") := by
    rw [writeLinks, Report.write_eq hshort, houtput]
    rfl
  rw [finish, hwritten]
  dsimp only
  rw [hline]
  exact ⟨rfl, rfl⟩

/-! ### Runs -/

theorem runCommand_cases (files : Files) (standardInput : StandardInput) (command : Command) :
    Untouched files "" (runCommand files standardInput command) ∨
      (∃ product output report, (produce files standardInput command).result = .ok product ∧
        command.output = some output ∧
        FailsBehindReport files product.links output report (runCommand files standardInput command)) ∨
      (runCommand files standardInput command).ending = .exit 0 := by
  rw [runCommand]
  dsimp only
  split
  · exact .inl ⟨Outcome.failed_files _ _, Outcome.failed_output _ _⟩
  · rename_i product hproduct
    refine (finish_cases command product ?_ ?_ ?_).imp_right (Or.imp_left ?_)
    · rfl
    · rfl
    · rfl
    · rintro ⟨output, report, hfails⟩
      exact ⟨product, output, report, hproduct, hfails⟩

/-- The command line asks for a command, and the run of that command ends well. -/
def Succeeds (words : List String) (files : Files) (standardInput : StandardInput) : Prop :=
  (∃ command, Request.ofLine words = .run command) ∧ (run words files standardInput).ending = .exit 0

/-- The text that a command line asks to be shown, nothing if it does not ask for one. -/
def Request.shown : Request → String
  | .show text => text
  | _ => ""

/-- A run that does not succeed leaves all files as they were and shows no report, unless it fails at totals that are too
long to be written. -/
theorem run_of_not_succeeds (h : ¬ Succeeds words files standardInput) :
    Untouched files (Request.ofLine words).shown (run words files standardInput) ∨
      ∃ command product output report, Request.ofLine words = .run command ∧
        (produce files standardInput command).result = .ok product ∧ command.output = some output ∧
        FailsBehindReport files product.links output report (run words files standardInput) := by
  cases hrequest : Request.ofLine words with
  | «show» text =>
    rw [run, hrequest]
    exact .inl ⟨rfl, rfl⟩
  | misuse program fault =>
    rw [run, hrequest]
    exact .inl ⟨rfl, rfl⟩
  | run command =>
    have hrun : run words files standardInput = runCommand files standardInput command := by rw [run, hrequest]
    rw [hrun]
    obtain huntouched | ⟨product, output, report, hfails⟩ | hexit := runCommand_cases files standardInput command
    · exact .inl huntouched
    · exact .inr ⟨command, product, output, report, rfl, hfails⟩
    · exact absurd ⟨⟨command, hrequest⟩, hrun ▸ hexit⟩ h

theorem run_of_not_succeeds_cutReport : ¬ Succeeds ["merge", "-", "-o", "-"] {} "[1" ∧
    (Untouched {} (Request.ofLine ["merge", "-", "-o", "-"]).shown (run ["merge", "-", "-o", "-"] {} "[1") ∨
      ∃ command product output report, Request.ofLine ["merge", "-", "-o", "-"] = .run command ∧
        (produce {} "[1" command).result = .ok product ∧ command.output = some output ∧
        FailsBehindReport {} product.links output report (run ["merge", "-", "-o", "-"] {} "[1")) := by
  have hread : readReport {} (.standardInput "[1") = .quiet (.error (.unreadable (.misplaced .expectingComma ⟨2, 1, 3⟩))) :=
    (readReport_standardInput (by decide) (by decide)).trans (by decide +kernel)
  have hexit : (run ["merge", "-", "-o", "-"] {} "[1").ending = .exit 1 := by
    rw [run, ofLine_mergeInput]
    dsimp only
    rw [runCommand, produce_mergeInput hread]
    rfl
  have hfails : ¬ Succeeds ["merge", "-", "-o", "-"] {} "[1" := fun h => by simpa [hexit] using h.2
  exact ⟨hfails, run_of_not_succeeds hfails⟩

/-- Two links whose calls can be written, but not the sum of them. -/
def manyCalls : List Link := [⟨"a", "b", 10 ^ 4300 - 1, 0⟩, ⟨"b", "c", 1, 0⟩]

/-- The sum is too long, so the run fails, but it has shown its report. -/
theorem not_untouched_manyCalls : ¬ Succeeds ["merge", "-", "-o", "-"] {} (Report.textOf manyCalls) ∧
    ¬ Untouched {} (Request.ofLine ["merge", "-", "-o", "-"]).shown
      (run ["merge", "-", "-o", "-"] {} (Report.textOf manyCalls)) := by
  have hshort : ∀ link ∈ manyCalls, Report.hasLongCount link.toRecord = false := by decide +kernel
  have hmerge : Tally.merge [manyCalls] = .ok manyCalls := by decide +kernel
  have hproduct : produce {} (Report.textOf manyCalls) mergeInput =
      .quiet (.ok { links := manyCalls, source := "1 reports" }) := by
    rw [produce_mergeInput (readReport_textOf (by decide +kernel) hshort)]
    dsimp only [bind, Except.bind]
    rw [hmerge]
    rfl
  obtain ⟨hending, houtput⟩ : (run ["merge", "-", "-o", "-"] {} (Report.textOf manyCalls)).ending = .exit 1 ∧
      (run ["merge", "-", "-o", "-"] {} (Report.textOf manyCalls)).output =
        "" ++ (Report.textOf manyCalls ++ "\n") := by
    rw [run, ofLine_mergeInput]
    dsimp only
    rw [runCommand, hproduct]
    exact finish_of_hasLongTotal rfl (.inl (by decide +kernel)) hshort
  refine ⟨fun h => by simpa [hending] using h.2, fun h => ?_⟩
  have hempty := congrArg String.length (houtput.symm.trans h.output)
  rw [ofLine_mergeInput] at hempty
  simp [Request.shown] at hempty

end ServiceMap.Cli
