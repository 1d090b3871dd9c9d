import ServiceMap.Number.Binary64
import ServiceMap.Number.Decimal
import ServiceMap.Text.Blank
import ServiceMap.Text.DecimalDigit

/-!
# Numerals in texts

How a text that stands for a number is read. Digits of any script count as digits, single underscores may separate
digits, and blanks around the numeral are passed over. The ASCII separators of fields and records are not among those
blanks.
-/

namespace ServiceMap.Numeral

open Text

/-- Why a text is no integer. -/
inductive IntegerFault where
  | notInteger
  | tooManyDigits (count : Nat)
deriving Repr, DecidableEq

/-- A character in its ASCII form: the digits and blanks of other scripts as the ASCII ones, and a question mark, which
no numeral holds, for everything else beyond ASCII. -/
def plainChar (c : Char) : Char :=
  if c.toNat < 0x80 then c
  else if isBlank c then ' '
  else match digitValue? c with
    | some value => Char.ofNat ('0'.toNat + value)
    | none => '?'

/-- The space and the ASCII controls that end lines or align columns. -/
def isPlainBlank (c : Char) : Bool := c = ' ' || (0x09 ≤ c.toNat && c.toNat ≤ 0x0d)

/-- A numeral in ASCII form without the blanks around it. -/
def plain (text : String) : List Char :=
  trimOf isPlainBlank (text.toList.map plainChar)

/-- The sign in front of a numeral, and what follows it. -/
def splitSign : List Char → Bool × List Char
  | '-' :: rest => (true, rest)
  | '+' :: rest => (false, rest)
  | rest => (false, rest)

/-- A numeral without its separators, unless one of them does not stand between two digits. The flag says that a digit
stands before the text. -/
def dropSeparators : (afterDigit : Bool) → List Char → Option (List Char)
  | _, [] => some []
  | _, ['_'] => none
  | afterDigit, '_' :: c :: rest =>
    if afterDigit && c.isDigit then (c :: ·) <$> dropSeparators true rest else none
  | _, c :: rest => (c :: ·) <$> dropSeparators c.isDigit rest

/-- The integer that a text stands for. The digits are counted before it is asked what follows them. -/
def readInteger (text : String) : Except IntegerFault Int :=
  let (negative, body) := splitSign (plain text)
  let isPart (c : Char) := c.isDigit || c = '_'
  match dropSeparators false (body.takeWhile isPart) with
  | none | some [] => .error .notInteger
  | some digits =>
    if digits.length > Decimal.maxDigits then .error (.tooManyDigits digits.length)
    else if (body.dropWhile isPart).isEmpty then .ok (Decimal.ofSigned negative digits)
    else .error .notInteger

/-- The exponent at the end of a numeral; 0 if there is none. -/
def readExponent : List Char → Option Int
  | [] => some 0
  | c :: rest =>
    let (negative, digits) := splitSign rest
    if (c = 'e' || c = 'E') && !digits.isEmpty && digits.all Char.isDigit then
      some (Decimal.ofSigned negative digits)
    else none

/-- The double nearest to a numeral without sign: digits, at least one, with a point among or beside them, and an
exponent. -/
def readMagnitude (negative : Bool) (text : List Char) : Option Binary64 :=
  let whole := text.takeWhile Char.isDigit
  let rest := text.dropWhile Char.isDigit
  let (part, rest) := match rest with
    | '.' :: rest => (rest.takeWhile Char.isDigit, rest.dropWhile Char.isDigit)
    | rest => ([], rest)
  if whole.isEmpty && part.isEmpty then none
  else (readExponent rest).map fun exponent =>
    .ofDecimal negative (Decimal.ofDigits (whole ++ part)) (exponent - part.length)

/-- The double that a text stands for. Infinity and not-a-number are written in letters of either case. -/
def readDouble (text : String) : Option Binary64 := do
  let (negative, body) := splitSign (← dropSeparators false (plain text))
  match String.ofList (body.map Char.toLower) with
  | "nan" => some .nan
  | "inf" | "infinity" => some (.infinite negative)
  | _ => readMagnitude negative body

end ServiceMap.Numeral
