import ServiceMap.Cli.Command
import ServiceMap.Link.Linker
import ServiceMap.Link.Report
import ServiceMap.Packing.Gzip
import ServiceMap.Span.Document
import ServiceMap.Storage.Files

/-!
# Running commands

A run of the program as a function: from the command line, the files and the standard input to what is shown, the files
afterwards, and how the run ends.

Inputs are read one after the other, and the report is complete before its file is opened. A single dash stands for the
standard input or output; the summary then goes to the standard error. Standard input can be read once and is empty
afterwards. Files whose name ends in `.gz` are unpacked.
-/

namespace ServiceMap.Cli

/-- How a run ends: with an exit code, or by a failure that the program does not handle. -/
inductive Ending where
  | exit (code : Nat)
  | failure (e : Failure)
deriving Repr, DecidableEq

/-- What a run comes to. -/
structure Outcome where
  ending : Ending
  output : String := ""
  errors : String := ""
  files : Files
  warnings : List Warning := []
deriving Repr, DecidableEq

/-- What comes in on the standard input, be it text or not. -/
structure StandardInput where
  bytes : List UInt8 := []
deriving Repr, DecidableEq

/-- A text comes in as its UTF-8 bytes. -/
def StandardInput.ofText (text : String) : StandardInput := ⟨text.toUTF8.toList⟩

instance : Coe String StandardInput := ⟨StandardInput.ofText⟩

/-- Where an input comes from. -/
inductive Source where
  | standardInput (input : StandardInput)
  | file (name : String)
deriving Repr, DecidableEq

/-- The sources of the inputs; the first dash takes the whole standard input. -/
def sourcesOf : StandardInput → List String → List Source
  | _, [] => []
  | standardInput, name :: rest =>
    if name = "-" then .standardInput standardInput :: sourcesOf {} rest
    else .file name :: sourcesOf standardInput rest

def feedOf (files : Files) : Source → Except Failure Feed
  | .standardInput input => .ok (.ofBytes input.bytes)
  | .file name => do
    let bytes ← files.read name
    return if name.endsWith ".gz" then Packing.unpack bytes else .ofBytes bytes

def readSpans (files : Files) (source : Source) : Reading (List Span) :=
  match (feedOf files source) >>= Feed.text with
  | .ok text => Span.ofChars text
  | .error e => .quiet (.error e)

def readReport (files : Files) (source : Source) : Reading (List Link) :=
  match (feedOf files source) >>= Feed.wholeText with
  | .ok text => Report.readText (String.ofList text)
  | .error e => .quiet (.error e)

/-- What a command makes of its inputs: links, a word on the inputs, and what was noted. -/
structure Product where
  links : List Link
  source : String
  notes : List TraceNote := []
deriving Repr, DecidableEq

def produce (files : Files) (standardInput : StandardInput) (command : Command) : Reading Product :=
  let sources := sourcesOf standardInput command.inputs
  match command.action with
  | .link =>
    (Reading.each (readSpans files) sources).bind fun readings =>
      let spans := readings.flatten
      .quiet do
        let (links, notes) ← linkSpans command.strict spans
        return { links, source := s!"{spans.length} spans", notes }
  | .merge =>
    (Reading.each (readReport files) sources).bind fun reports =>
      .quiet do
        return { links := ← Tally.merge reports, source := s!"{command.inputs.length} reports" }

/-- A number in decimal notation, unless it is too long. -/
def countText (n : Nat) : Except Failure String :=
  if Decimal.tooLong n then .error .tooLongToWrite else .ok (Decimal.text n)

def summaryLine (output : String) (product : Product) : Except Failure String := do
  let calls ← countText (product.links.foldl (fun total link => total + link.calls) 0)
  let errors ← countText (product.links.foldl (fun total link => total + link.errors) 0)
  return s!"Dependencies written: {output} ({product.source}, {product.links.length} links: " ++
    s!"{calls} calls, {errors} errors)\n"

/-- What was noted, in lines. -/
def noteLines (command : Command) (notes : List TraceNote) : String :=
  if command.verbose then
    String.join (notes.map fun note => "DEBUG trace_deps.linker: " ++ note.message ++ "\n")
  else ""

/-- The program handles unfit values and files that cannot be read or written; any other failure ends the run as it
is. -/
def handles (e : Failure) : Bool := e.isUnfitValue || e.kind == .storage

def Outcome.failed (outcome : Outcome) (e : Failure) : Outcome :=
  if handles e then { outcome with ending := .exit 1, errors := outcome.errors ++ "Error: " ++ e.message ++ "\n" }
  else { outcome with ending := .failure e }

def Outcome.written (outcome : Outcome) (output : String) (report : String) : Except Failure Outcome :=
  if output = "-" then .ok { outcome with output := outcome.output ++ report }
  else return { outcome with files := ← outcome.files.write output report.toUTF8.toList }

/-- The outcome after the summary of what was written to an output was shown. -/
def Outcome.summarised (outcome : Outcome) (output : String) (line : String) : Outcome :=
  if output = "-" then { outcome with errors := outcome.errors ++ line }
  else { outcome with output := outcome.output ++ line }

def writeLinks (outcome : Outcome) (command : Command) (links : List Link) : Except Failure (Outcome × String) := do
  let report ← Report.write links
  match command.output with
  | some output => return (← outcome.written output (report ++ "\n"), output)
  | none => .error .noOutputName

def finish (outcome : Outcome) (command : Command) (product : Product) : Outcome :=
  match writeLinks outcome command product.links with
  | .error e => outcome.failed e
  | .ok (outcome, output) =>
    match summaryLine output product with
    | .error e => outcome.failed e
    | .ok line => outcome.summarised output line

def runCommand (files : Files) (standardInput : StandardInput) (command : Command) : Outcome :=
  let reading := produce files standardInput command
  let start : Outcome := { ending := .exit 0, files, warnings := reading.warnings }
  match reading.result with
  | .error e => start.failed e
  | .ok product => finish { start with errors := noteLines command product.notes } command product

/-- A run from a command line. The words of the command line are texts. A word whose bytes are no UTF-8 is left out here, and
with it the one way in which a summary cannot be shown though it was put into words: that it names such an output. -/
def run (words : List String) (files : Files) (standardInput : StandardInput) : Outcome :=
  match Request.ofLine words with
  | .show text => { ending := .exit 0, output := text, files }
  | .misuse program fault =>
    { ending := .exit 2, errors := usage program ++ program ++ ": error: " ++ fault.message ++ "\n", files }
  | .run command => runCommand files standardInput command

end ServiceMap.Cli
