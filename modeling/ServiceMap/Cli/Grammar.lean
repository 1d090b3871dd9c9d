import ServiceMap.Text.DecimalDigit
import ServiceMap.Text.Quoted

/-!
# Command lines

How the words of a command line are taken apart. A grammar has options and one operand, which is either one or more
words, or the name of a command and everything behind it.

Options may be written by their first letters as far as that is unambiguous, the value of an option may follow it in the
same word, and single-letter options may share a word. All words are sorted into options and other words before any of
them counts. Behind a word of two dashes there are no options.

The words of the operand stand together: once it is taken, further words are left over.
-/

namespace ServiceMap.Cli

/-- An option: its names, and whether it takes a value. -/
structure Opt where
  names : List String
  takesValue : Bool := false
deriving Repr, DecidableEq

/-- What the words that are no options stand for. -/
inductive Operand where
  /-- One or more words. -/
  | words (name : String)
  /-- The name of a command and all words behind it. -/
  | command (name : String)
deriving Repr, DecidableEq

/-- What a command line may hold. -/
structure Grammar where
  program : String
  options : List Opt
  operand : Operand
deriving Repr, DecidableEq

/-- Why a command line cannot be understood. -/
inductive UsageFault where
  | ambiguous (word : String) (matching : List String)
  | valueMissing (option : Opt)
  | valueIgnored (option : Opt) (value : String)
  | unknownCommand (operand command : String) (known : List String)
  | missing (operand : String)
  | unrecognized (words : List String)
deriving Repr, DecidableEq

def Opt.title (option : Opt) : String := "/".intercalate option.names

def UsageFault.message : UsageFault → String
  | ambiguous word matching => "ambiguous option: " ++ word ++ " could match " ++ ", ".intercalate matching
  | valueMissing option => "argument " ++ option.title ++ ": expected one argument"
  | valueIgnored option value =>
    "argument " ++ option.title ++ ": ignored explicit argument " ++ Text.quoted value
  | unknownCommand operand command known =>
    "argument " ++ operand ++ ": invalid choice: " ++ Text.quoted command ++
      " (choose from " ++ ", ".intercalate (known.map Text.quoted) ++ ")"
  | missing operand => "the following arguments are required: " ++ operand
  | unrecognized words => "unrecognized arguments: " ++ " ".intercalate words

/-- An option as it occurs: which one it is, the name that stands for it, and what follows the name in the same word,
either behind an equals sign or at once. -/
structure Occurrence where
  option : Opt
  name : String
  attached : Option String := none
deriving Repr, DecidableEq

/-- A word sorted. -/
inductive Word where
  | plain (text : String)
  | separator
  | known (text : String) (occurrence : Occurrence)
  | unknown (text : String)
deriving Repr, DecidableEq

def Word.text : Word → String
  | plain text | known text _ | unknown text => text
  | separator => "--"

/-- The word is an option, be it known or not. -/
def Word.isOption : Word → Bool
  | known .. | unknown _ => true
  | _ => false

/-! ### Sorting words -/

namespace Grammar

def names (g : Grammar) : List (String × Opt) :=
  g.options.flatMap fun option => option.names.map (·, option)

def find? (g : Grammar) (name : String) : Option Opt := g.names.lookup name

def splitSign (word : List Char) : List Char × Option (List Char) :=
  match word.dropWhile (· != '=') with
  | [] => (word, none)
  | _ :: rest => (word.takeWhile (· != '='), some rest)

/-- The options that a word may abbreviate. Only what stands before an equals sign counts in a word with two dashes. A
word with one dash may be a single-letter option with its value, or the beginning of a longer name. -/
def candidates (g : Grammar) (word : List Char) : List Occurrence :=
  match word with
  | '-' :: '-' :: _ =>
    let (start, value) := splitSign word
    g.names.filterMap fun (name, option) =>
      if start.isPrefixOf name.toList then
        some { option, name, attached := value.map String.ofList }
      else none
  | _ =>
    g.names.filterMap fun (name, option) =>
      if name.toList = word.take 2 then some { option, name, attached := some (String.ofList (word.drop 2)) }
      else if word.isPrefixOf name.toList then some { option, name }
      else none

def areDigits (text : List Char) : Bool := text.all fun c => (Text.digitValue? c).isSome

/-- The word is a negative number: a dash, digits, and possibly a point with digits behind it. -/
def isNegativeNumber (word : List Char) : Bool :=
  let word := if word.getLast? = some '\n' then word.dropLast else word
  match word with
  | '-' :: body =>
    let whole := body.takeWhile (· != '.')
    match body.dropWhile (· != '.') with
    | [] => !whole.isEmpty && areDigits whole
    | _ :: part => areDigits whole && !part.isEmpty && areDigits part
  | _ => false

def sortWord (g : Grammar) (text : String) : Except UsageFault Word :=
  let word := text.toList
  let (start, value) := splitSign word
  if word.head? != some '-' then .ok (.plain text)
  else match g.find? text with
    | some option => .ok (.known text { option, name := text })
    | none =>
      if word.length = 1 then .ok (.plain text)
      else match value, g.find? (String.ofList start) with
        | some value, some option =>
          .ok (.known text { option, name := String.ofList start, attached := some (String.ofList value) })
        | _, _ =>
          match g.candidates word with
          | [occurrence] => .ok (.known text occurrence)
          | [] => .ok (if isNegativeNumber word || word.contains ' ' then .plain text else .unknown text)
          | several => .error (.ambiguous text (several.map (·.name)))

def sortWords (g : Grammar) : List String → Except UsageFault (List Word)
  | [] => .ok []
  | text :: rest =>
    if text = "--" then .ok (.separator :: rest.map .plain)
    else do
      let word ← g.sortWord text
      return word :: (← g.sortWords rest)

end Grammar

/-! ### Taking words -/

/-- A part of a command line that was understood, or a word that was left over. -/
inductive Event where
  | option (option : Opt) (value : Option String)
  | operand (words : List String)
  | leftOver (word : String)
deriving Repr, DecidableEq

/-- What was understood of a command line, up to a fault if there is one. -/
structure Scan where
  events : List Event := []
  fault : Option UsageFault := none
deriving Repr, DecidableEq

def Scan.after (events : List Event) (scan : Scan) : Scan := { scan with events := events ++ scan.events }

namespace Grammar

/-- An option with the value that follows it in its own word. Two dashes are no value: they are dropped, and the option is
left without one. -/
def withValue (option : Opt) (value : List Char) : Event :=
  .option option (if value = ['-', '-'] then none else some (String.ofList value))

/-- The options that share a word with a single-letter option. What follows is the word behind that letter: the value of
the option, if it takes one, or the letters of more options. The result says which options there are and which of them
still needs a value. -/
def cluster (g : Grammar) (option : Opt) : List Char → Except UsageFault (List Event × Option Opt)
  | [] => .ok ([], some option)
  | c :: rest =>
    if option.takesValue then .ok ([withValue option (c :: rest)], none)
    else match g.find? (String.ofList ['-', c]) with
      | none => .error (.valueIgnored option (String.ofList (c :: rest)))
      | some next => do
        let (events, open?) ← g.cluster next rest
        return (.option option none :: events, open?)

/-- The options of a word, and the one that still takes what comes behind the word. -/
def expand (g : Grammar) (o : Occurrence) : Except UsageFault (List Event × Option Opt) :=
  match o.attached with
  | none => .ok ([], some o.option)
  | some value =>
    if o.option.takesValue then .ok ([withValue o.option value.toList], none)
    else if o.name.startsWith "--" || value.isEmpty then .error (.valueIgnored o.option value)
    else g.cluster o.option value.toList

/-- Takes the words of a command line, at most `steps` of them at a time, while the operand has been taken or not. -/
def scanWords (g : Grammar) : (steps : Nat) → (taken : Bool) → List Word → Scan
  | 0, _, _ => {}
  | _, _, [] => {}
  | steps + 1, taken, .unknown text :: rest => (g.scanWords steps taken rest).after [.leftOver text]
  | steps + 1, taken, .known _ occurrence :: rest =>
    match g.expand occurrence with
    | .error fault => { fault := some fault }
    | .ok (events, none) => (g.scanWords steps taken rest).after events
    | .ok (events, some option) =>
      match option.takesValue, rest with
      | false, rest => (g.scanWords steps taken rest).after (events ++ [.option option none])
      | true, .plain value :: rest => (g.scanWords steps taken rest).after (events ++ [.option option (some value)])
      | true, _ => { fault := some (.valueMissing option) }
  | steps + 1, taken, words =>
    let run := words.takeWhile (!·.isOption)
    let rest := words.dropWhile (!·.isOption)
    if taken || run.all (· = .separator) then
      (g.scanWords steps taken rest).after (run.map fun word => .leftOver word.text)
    else match g.operand with
      | .command _ => { events := [.operand (words.map Word.text)] }
      | .words _ =>
        (g.scanWords steps true rest).after [.operand ((run.filter (· != .separator)).map Word.text)]

def scan (g : Grammar) (line : List String) : Scan :=
  match g.sortWords line with
  | .ok words => g.scanWords words.length false words
  | .error fault => { fault := some fault }

end Grammar

end ServiceMap.Cli
