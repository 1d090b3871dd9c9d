import ServiceMap.Json.Basic
import ServiceMap.Number.Shortest
import ServiceMap.Text.Quoted

/-!
# Writing documents

A document as text in two forms. The compact form is a document again: it has no blanks and is ASCII, everything else
being written as a code escape. The display form is the one that diagnostics use and that stands in for a text where a
field holds another value.
-/

namespace ServiceMap.Json

/-- The parts of a sequence with a separator between them. -/
def separated (separator : List Char) (parts : List (List Char)) : List Char :=
  (parts.intersperse separator).flatten

/-! ### The compact form -/

def codeEscape (n : Nat) : List Char := '\\' :: 'u' :: Text.hexDigits 4 n

def compactChar (c : Char) : List Char :=
  if c = '"' then ['\\', '"']
  else if c = '\\' then ['\\', '\\']
  else if c = '\n' then ['\\', 'n']
  else if c = '\r' then ['\\', 'r']
  else if c = '\t' then ['\\', 't']
  else if c = '\x0c' then ['\\', 'f']
  else if c = '\x08' then ['\\', 'b']
  else if ' ' ≤ c ∧ c ≤ '~' then [c]
  else if c.toNat < 0x10000 then codeEscape c.toNat
  else
    let above := c.toNat - 0x10000
    codeEscape (0xd800 + above / 0x400) ++ codeEscape (0xdc00 + above % 0x400)

def compactText (text : String) : List Char := '"' :: text.toList.flatMap compactChar ++ ['"']

mutual

def compact : Json → List Char
  | .null => "null".toList
  | .bool b => (if b then "true" else "false").toList
  | .int n => Decimal.chars n
  | .float x => x.charsWith "Infinity".toList "NaN".toList
  | .str s => compactText s
  | .arr items => '[' :: separated [','] (compactItems items) ++ [']']
  | .obj fields => '{' :: separated [','] (compactFields fields) ++ ['}']

def compactItems : List Json → List (List Char)
  | [] => []
  | item :: items => compact item :: compactItems items

def compactFields : List (String × Json) → List (List Char)
  | [] => []
  | (name, v) :: fields => (compactText name ++ ':' :: compact v) :: compactFields fields

end

/-! ### The display form -/

mutual

/-- A value inside another one, as diagnostics show it: texts in quotes. -/
def shown : Json → List Char
  | .null => "None".toList
  | .bool b => (if b then "True" else "False").toList
  | .int n => Decimal.chars n
  | .float x => x.chars
  | .str s => Text.quotedChars s.toList
  | .arr items => '[' :: separated [',', ' '] (shownItems items) ++ [']']
  | .obj fields => '{' :: separated [',', ' '] (shownFields fields) ++ ['}']

/-- The items of an array, as diagnostics show them. -/
def shownItems : List Json → List (List Char)
  | [] => []
  | item :: items => shown item :: shownItems items

/-- The fields of an object, as diagnostics show them. -/
def shownFields : List (String × Json) → List (List Char)
  | [] => []
  | (name, v) :: fields => (Text.quotedChars name.toList ++ ':' :: ' ' :: shown v) :: shownFields fields

end

/-- A value as a text: a text is itself, everything else is shown. There is no limit to the digits of an integer here:
what is read has at most `Decimal.maxDigits`, and no more are shown of it. -/
def display : Json → String
  | .str s => s
  | v => String.ofList (shown v)

def quoted (v : Json) : String := String.ofList (shown v)

end ServiceMap.Json
