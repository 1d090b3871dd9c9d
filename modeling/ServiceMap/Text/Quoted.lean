import ServiceMap.Text.Printable

/-!
# Quoted texts

How diagnostics show a text so that every character of it can be told apart: between quotes, with the quote in use, the
backslash and everything that has no visible form written as an escape.

Single quotes are used unless the text holds a single quote and no double quote.
-/

namespace ServiceMap.Text

/-- The lower-case hexadecimal digits of a number, at least `width` of them. -/
def hexDigits (width n : Nat) : List Char :=
  let digits := Nat.toDigits 16 n
  List.replicate (width - digits.length) '0' ++ digits

/-- A character by its number, in the shortest of the three escapes that hold it. -/
def numericEscape (c : Char) : List Char :=
  let n := c.toNat
  if n ≤ 0xff then '\\' :: 'x' :: hexDigits 2 n
  else if n ≤ 0xffff then '\\' :: 'u' :: hexDigits 4 n
  else '\\' :: 'U' :: hexDigits 8 n

def quotedChar (quote c : Char) : List Char :=
  if c = quote || c = '\\' then ['\\', c]
  else if c = '\t' then ['\\', 't']
  else if c = '\n' then ['\\', 'n']
  else if c = '\r' then ['\\', 'r']
  else if isPrintable c then [c]
  else numericEscape c

def quoteFor (text : List Char) : Char :=
  if text.contains '\'' && !text.contains '"' then '"' else '\''

def quotedChars (text : List Char) : List Char :=
  let quote := quoteFor text
  quote :: text.flatMap (quotedChar quote) ++ [quote]

def quoted (text : String) : String :=
  String.ofList (quotedChars text.toList)

/-- Bytes between quotes after the letter `b`: like a text of characters up to 255, of which only the visible ASCII
characters stand for themselves. -/
def quotedBytes (bytes : List UInt8) : String :=
  let text := bytes.map fun byte => Char.ofNat byte.toNat
  let quote := quoteFor text
  let shown (c : Char) := if c.toNat < 0x7f then quotedChar quote c else numericEscape c
  String.ofList ('b' :: quote :: text.flatMap shown ++ [quote])

end ServiceMap.Text
