import ServiceMap.Text.CaseTable

/-!
# Lower case

A text in lower case, for every script. Each character has a lower-case form of its own with two exceptions: the capital
I with a dot above becomes two characters, and a capital sigma becomes the final sigma where a word ends.

A word ends at a sigma when the nearest character before it that is not passed over has case and the nearest one after
it has none. Marks and signs inside a word are passed over.
-/

namespace ServiceMap.Text

private def within (ranges : List (Nat × Nat)) (c : Char) : Bool :=
  ranges.any fun range => range.1 ≤ c.toNat && c.toNat ≤ range.2

/-- The character is passed over when the end of a word is sought. -/
def isCaseIgnorable (c : Char) : Bool := within caseIgnorableRanges c

def isCased (c : Char) : Bool := within casedRanges c

def CaseRun.covers (run : CaseRun) (c : Char) : Bool :=
  run.first ≤ c.toNat && c.toNat ≤ run.last && (c.toNat - run.first) % run.step == 0

/-- The lower-case form of a character outside any context. -/
def lowerChar (c : Char) : List Char :=
  if c = 'İ' then ['i', '\u0307']
  else match lowerRuns.find? (·.covers c) with
    | some run => [Char.ofNat (c.toNat + run.shift).toNat]
    | none => [c]

/-- The nearest character that is not passed over has case. -/
def meetsCased (text : List Char) : Bool :=
  match text.dropWhile isCaseIgnorable with
  | c :: _ => isCased c
  | [] => false

/-- A sigma between these neighbours ends a word. The text before it is given nearest character first. -/
def endsWord (before after : List Char) : Bool :=
  meetsCased before && !meetsCased after

/-- The lower-case form of the rest of a text, given what stands before it, nearest character first. -/
def lowerAfter (before : List Char) : List Char → List Char
  | [] => []
  | c :: rest =>
    if c = 'Σ' then (if endsWord before rest then 'ς' else 'σ') :: lowerAfter (c :: before) rest
    else lowerChar c ++ lowerAfter (c :: before) rest

def lower (text : String) : String :=
  String.ofList (lowerAfter [] text.toList)

end ServiceMap.Text
