import ServiceMap.Cli.Grammar

/-!
# The commands of the program

`link` derives a link report from span files, `merge` brings link reports together. Both write one file.
-/

namespace ServiceMap.Cli

def programName : String := "trace-deps"

def version : String := "0.1.0"

def helpOption : Opt := { names := ["-h", "--help"] }

def versionOption : Opt := { names := ["--version"] }

def verboseOption : Opt := { names := ["-v", "--verbose"] }

def lowHalfOption : Opt := { names := ["--no-strict-trace-id"] }

def outputOption : Opt := { names := ["-o", "--output"], takesValue := true }

/-- What a command does with its inputs. -/
inductive Action where
  | link
  | merge
deriving Repr, DecidableEq

namespace Action

def all : List Action := [.link, .merge]

def name : Action → String
  | link => "link"
  | merge => "merge"

def find? (name : String) : Option Action := all.find? (·.name = name)

/-- What the command line of a command may hold behind its name. -/
def grammar (a : Action) : Grammar where
  program := programName ++ " " ++ a.name
  options := match a with
    | link => [helpOption, lowHalfOption, outputOption]
    | merge => [helpOption, outputOption]
  operand := .words "inputs"

end Action

def mainGrammar : Grammar where
  program := programName
  options := [helpOption, versionOption, verboseOption]
  operand := .command "command"

/-- What the program is asked to do. The output is missing if its option was left without a value. -/
structure Command where
  action : Action
  inputs : List String
  output : Option String := some "dependencies.json"
  strict : Bool := true
  verbose : Bool := false
deriving Repr, DecidableEq

/-- What a command line comes to: a command, a text to be shown instead, or a fault in the use of a part of the
program. -/
inductive Request where
  | run (command : Command)
  | show (text : String)
  | misuse (program : String) (fault : UsageFault)
deriving Repr, DecidableEq

/-! ### Help -/

/-- How the parts of the program are used, in one line each. -/
def usage (program : String) : String :=
  if program = (Action.link.grammar).program then
    s!"usage: {program} [-h] [--no-strict-trace-id] [-o OUTPUT] inputs [inputs ...]\n"
  else if program = (Action.merge.grammar).program then s!"usage: {program} [-h] [-o OUTPUT] inputs [inputs ...]\n"
  else "usage: trace-deps [-h] [--version] [-v] \x7blink,merge\x7d ...\n"

def summary (program : String) : String :=
  if program = (Action.link.grammar).program then "Derive dependency links from span files"
  else if program = (Action.merge.grammar).program then "Merge dependency link reports, e.g. one per day"
  else "Derive service dependency links from trace files"

def help (program : String) : String := usage program ++ "\n" ++ summary program ++ "\n"

/-! ### Reading command lines -/

/-- What the words behind the name of a command say. -/
structure CommandLine where
  command : Command
  leftOver : List String := []
deriving Repr, DecidableEq

def readCommandEvents (program : String) (line : CommandLine) : List Event → Except Request CommandLine
  | [] => .ok line
  | .option option value :: events =>
    if option = helpOption then .error (.show (help program))
    else if option = lowHalfOption then
      readCommandEvents program { line with command := { line.command with strict := false } } events
    else readCommandEvents program { line with command := { line.command with output := value } } events
  | .operand inputs :: events =>
    readCommandEvents program { line with command := { line.command with inputs } } events
  | .leftOver word :: events =>
    readCommandEvents program { line with leftOver := line.leftOver ++ [word] } events

def readCommandLine (action : Action) (words : List String) : Except Request CommandLine := do
  let grammar := action.grammar
  let scan := grammar.scan words
  let line ← readCommandEvents grammar.program { command := { action, inputs := [] } } scan.events
  match scan.fault with
  | some fault => .error (.misuse grammar.program fault)
  | none =>
    if line.command.inputs.isEmpty then .error (.misuse grammar.program (.missing "inputs"))
    else return line

/-- What has been read of the command line of the program. -/
structure ProgramLine where
  verbose : Bool := false
  command : Option CommandLine := none
  leftOver : List String := []
deriving Repr, DecidableEq

def readProgramEvents (line : ProgramLine) : List Event → Except Request ProgramLine
  | [] => .ok line
  | .option option _ :: events =>
    if option = helpOption then .error (.show (help programName))
    else if option = versionOption then .error (.show (programName ++ " " ++ version ++ "\n"))
    else readProgramEvents { line with verbose := true } events
  | .operand words :: events => do
    let name := words.headD ""
    match Action.find? name with
    | none => .error (.misuse programName (.unknownCommand "command" name (Action.all.map Action.name)))
    | some action =>
      let command ← readCommandLine action words.tail
      readProgramEvents { line with command := some command } events
  | .leftOver word :: events => readProgramEvents { line with leftOver := line.leftOver ++ [word] } events

def Request.ofLine (words : List String) : Request :=
  let scan := mainGrammar.scan words
  match readProgramEvents {} scan.events with
  | .error request => request
  | .ok line =>
    match scan.fault, line.command with
    | some fault, _ => .misuse programName fault
    | none, none => .misuse programName (.missing "command")
    | none, some command =>
      let leftOver := line.leftOver ++ command.leftOver
      if leftOver.isEmpty then .run { command.command with verbose := line.verbose }
      else .misuse programName (.unrecognized leftOver)

end ServiceMap.Cli
