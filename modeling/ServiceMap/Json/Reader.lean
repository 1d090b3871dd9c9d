import ServiceMap.Json.Basic
import ServiceMap.Number.Decimal
import ServiceMap.Table

/-!
# Reading documents

The text of a document as a value. Reading looks at what is left of the text and either takes a part of it or stops; a
text that is no document is refused with the place where reading stopped, which is where what was left began.

A name that occurs twice in an object keeps its first place and takes its last value. A number of more than 4300 digits
without point and exponent is refused, without a place.
-/

namespace ServiceMap.Json

/-- What is wrong where reading stops. -/
inductive Problem where
  | expectingValue
  | expectingName
  | expectingColon
  | expectingComma
  | unterminatedString
  | controlCharacter
  | invalidEscape
  | invalidCodeEscape
  | extraData
  | byteOrderMark
deriving Repr, DecidableEq

/-- Why no part can be taken: a problem in front of what was left of the text, or a numeral with too many digits. -/
inductive Fault where
  | stop (problem : Problem) (left : List Char)
  | tooManyDigits (count : Nat)
deriving Repr, DecidableEq

/-- A place in a text: how many characters stand before it, its line and its column, both from 1. -/
structure Place where
  offset : Nat
  line : Nat
  column : Nat
deriving Repr, DecidableEq

/-- Why a text is no document. -/
inductive ReadError where
  | misplaced (problem : Problem) (place : Place)
  | tooManyDigits (count : Nat)
deriving Repr, DecidableEq

/-- The place behind the first `offset` characters of a text. -/
def Place.after (text : List Char) (offset : Nat) : Place :=
  let before := text.take offset
  { offset
    line := before.count '\n' + 1
    column := (before.reverse.takeWhile (· != '\n')).length + 1 }

def Fault.locate (text : List Char) : Fault → ReadError
  | .stop problem left => .misplaced problem (.after text (text.length - left.length))
  | .tooManyDigits count => .tooManyDigits count

/-! ### Blanks and texts -/

def isSpace (c : Char) : Bool := c = ' ' || c = '\t' || c = '\n' || c = '\r'

def skipSpace (left : List Char) : List Char := left.dropWhile isSpace

/-- The character that a backslash and this letter stand for. -/
def shortEscape? : Char → Option Char
  | '"' => some '"'
  | '\\' => some '\\'
  | '/' => some '/'
  | 'b' => some '\x08'
  | 'f' => some '\x0c'
  | 'n' => some '\n'
  | 'r' => some '\r'
  | 't' => some '\t'
  | _ => none

def hexValue? (c : Char) : Option Nat :=
  if '0' ≤ c ∧ c ≤ '9' then some (c.toNat - '0'.toNat)
  else if 'a' ≤ c ∧ c ≤ 'f' then some (c.toNat - 'a'.toNat + 10)
  else if 'A' ≤ c ∧ c ≤ 'F' then some (c.toNat - 'A'.toNat + 10)
  else none

def hexNumber? (a b c d : Char) : Option Nat := do
  return (((← hexValue? a) * 16 + (← hexValue? b)) * 16 + (← hexValue? c)) * 16 + (← hexValue? d)

/-- The first half of a character beyond the first 65536. -/
def isHighHalf (n : Nat) : Bool := 0xd800 ≤ n && n < 0xdc00

/-- The second half of a character beyond the first 65536. -/
def isLowHalf (n : Nat) : Bool := 0xdc00 ≤ n && n < 0xe000

def joinHalves (high low : Nat) : Char := Char.ofNat (0x10000 + (high - 0xd800) * 0x400 + (low - 0xdc00))

/-- The character of one code; a half that stands alone is none and shows as the replacement character. -/
def codeChar (n : Nat) : Char := if isHighHalf n || isLowHalf n then '\ufffd' else Char.ofNat n

/-- The character of a code escape that has `n` in its first four digits, and how many characters the escape takes
behind its backslash. The first half of a character takes the second one along if that is the escape behind it. -/
def joinEscape (n : Nat) (after : List Char) : Except Fault (Char × Nat) :=
  match isHighHalf n, after with
  | true, '\\' :: 'u' :: a :: b :: c :: d :: _ :: _ =>
    match hexNumber? a b c d with
    | none => .error (.stop .invalidCodeEscape (after.drop 1))
    | some low => .ok (if isLowHalf low then (joinHalves n low, 11) else (codeChar n, 5))
  | _, _ => .ok (codeChar n, 5)

/-- The character of the escape behind a backslash, and how many characters the escape takes there. A code escape needs
a character behind its four digits, as the text has to be closed. -/
def readEscape (letter : Char) (rest : List Char) : Except Fault (Char × Nat) :=
  if letter = 'u' then
    match rest with
    | a :: b :: c :: d :: next :: after =>
      match hexNumber? a b c d with
      | none => .error (.stop .invalidCodeEscape (letter :: rest))
      | some n => joinEscape n (next :: after)
    | _ => .error (.stop .invalidCodeEscape (letter :: rest))
  else match shortEscape? letter with
    | none => .error (.stop .invalidEscape ('\\' :: letter :: rest))
    | some c => .ok (c, 1)

/-- What was taken, with one more character in front of its text. -/
def withChar (c : Char) (taken : Except Fault (List Char × List Char)) : Except Fault (List Char × List Char) :=
  taken.map fun (text, left) => (c :: text, left)

/-- Takes the rest of a text up to its closing quote, once the first `skipped` characters are passed over. The text from
its opening quote on is `opening`. -/
def readText (opening : List Char) : (skipped : Nat) → List Char → Except Fault (List Char × List Char)
  | _, [] => .error (.stop .unterminatedString opening)
  | skipped + 1, _ :: rest => readText opening skipped rest
  | 0, c :: rest =>
    if c = '"' then .ok ([], rest)
    else if c = '\\' then
      match rest with
      | [] => .error (.stop .unterminatedString opening)
      | letter :: more =>
        match readEscape letter more with
        | .error fault => .error fault
        | .ok (e, length) => withChar e (readText opening length (letter :: more))
    else if c.toNat ≤ 0x1f then .error (.stop .controlCharacter (c :: rest))
    else withChar c (readText opening 0 rest)

/-! ### Numbers and words -/

/-- Takes a point and the digits behind it, if there are any. -/
def takeFraction : List Char → List Char × List Char
  | '.' :: rest =>
    let digits := rest.takeWhile Char.isDigit
    if digits.isEmpty then ([], '.' :: rest) else (digits, rest.dropWhile Char.isDigit)
  | left => ([], left)

/-- Takes an exponent, if its mark has digits behind it. -/
def takeExponent (left : List Char) : Option Int × List Char :=
  match left with
  | mark :: rest =>
    let (negative, rest) := match rest with
      | '-' :: rest => (true, rest)
      | '+' :: rest => (false, rest)
      | rest => (false, rest)
    let digits := rest.takeWhile Char.isDigit
    if (mark = 'e' || mark = 'E') && !digits.isEmpty then
      (some (Decimal.ofSigned negative digits), rest.dropWhile Char.isDigit)
    else (none, left)
  | [] => (none, left)

def takeSign : List Char → Bool × List Char
  | '-' :: rest => (true, rest)
  | left => (false, left)

/-- Takes the digits in front of the point. A zero in front is a number of its own. -/
def takeWhole : List Char → List Char × List Char
  | '0' :: rest => (['0'], rest)
  | left => (left.takeWhile Char.isDigit, left.dropWhile Char.isDigit)

def readNumber (left : List Char) : Except Fault (Json × List Char) :=
  let (negative, body) := takeSign left
  let (whole, rest) := takeWhole body
  if whole.isEmpty then .error (.stop .expectingValue left)
  else
    let (part, rest) := takeFraction rest
    match part, takeExponent rest with
    | [], (none, rest) =>
      if whole.length > Decimal.maxDigits then .error (.tooManyDigits whole.length)
      else .ok (.int (Decimal.ofSigned negative whole), rest)
    | _, (exponent, rest) =>
      let digits := Decimal.ofDigits (whole ++ part)
      .ok (.float (.ofDecimal negative digits (exponent.getD 0 - part.length)), rest)

def words : List (List Char × Json) :=
  [("null".toList, .null), ("true".toList, .bool true), ("false".toList, .bool false),
    ("NaN".toList, .float .nan), ("Infinity".toList, .float (.infinite false)),
    ("-Infinity".toList, .float (.infinite true))]

def readScalar (left : List Char) : Except Fault (Json × List Char) :=
  match words.findSome? fun (word, v) => (word.isPrefixOf? left).map (v, ·) with
  | some taken => .ok taken
  | none => readNumber left

/-! ### Values

The first argument bounds how many more parts are opened. Every part begins with a character of its own except for the
first item of an array, so twice the length of the text is enough. -/

mutual

def readValue : (parts : Nat) → List Char → Except Fault (Json × List Char)
  | 0, left => .error (.stop .expectingValue left)
  | parts + 1, left =>
    match left with
    | '"' :: rest => (fun (text, left) => (.str (String.ofList text), left)) <$> readText left 0 rest
    | '{' :: rest =>
      match skipSpace rest with
      | '}' :: rest => .ok (.obj [], rest)
      | rest => (fun (fields, left) => (.obj (Table.ofList fields).entries, left)) <$> readFields parts rest
    | '[' :: rest =>
      match skipSpace rest with
      | ']' :: rest => .ok (.arr [], rest)
      | rest => (fun (items, left) => (.arr items, left)) <$> readItems parts rest
    | _ => readScalar left

def readItems : (parts : Nat) → List Char → Except Fault (List Json × List Char)
  | 0, left => .error (.stop .expectingValue left)
  | parts + 1, left => do
    let (item, rest) ← readValue parts left
    match skipSpace rest with
    | ']' :: rest => return ([item], rest)
    | ',' :: rest =>
      let (items, rest) ← readItems parts (skipSpace rest)
      return (item :: items, rest)
    | rest => .error (.stop .expectingComma rest)

def readFields : (parts : Nat) → List Char → Except Fault (List (String × Json) × List Char)
  | 0, left => .error (.stop .expectingName left)
  | parts + 1, left =>
    match left with
    | '"' :: rest => do
      let (name, rest) ← readText left 0 rest
      match skipSpace rest with
      | ':' :: rest =>
        let (v, rest) ← readValue parts (skipSpace rest)
        match skipSpace rest with
        | '}' :: rest => return ([(String.ofList name, v)], rest)
        | ',' :: rest =>
          let (fields, rest) ← readFields parts (skipSpace rest)
          return ((String.ofList name, v) :: fields, rest)
        | rest => .error (.stop .expectingComma rest)
      | rest => .error (.stop .expectingColon rest)
    | _ => .error (.stop .expectingName left)

end

def readWhole (text : List Char) : Except Fault Json := do
  if text.head? = some '\ufeff' then .error (.stop .byteOrderMark text)
  let (v, rest) ← readValue (2 * text.length + 2) (skipSpace text)
  match skipSpace rest with
  | [] => return v
  | rest => .error (.stop .extraData rest)

def read (text : String) : Except ReadError Json :=
  (readWhole text.toList).mapError (Fault.locate text.toList)

end ServiceMap.Json
