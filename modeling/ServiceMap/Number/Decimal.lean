/-!
# Decimal notation of integers

How integers are written and read in decimal digits. A numeral of more than 4300 digits is refused both ways: its
conversion would take time quadratic in its length.
-/

namespace ServiceMap

namespace Decimal

/-- The greatest number of digits of an integer that is read or written. -/
def maxDigits : Nat := 4300

def digits (n : Nat) : List Char := Nat.toDigits 10 n

def chars (n : Int) : List Char :=
  if n < 0 then '-' :: digits n.natAbs else digits n.natAbs

def text (n : Int) : String := String.ofList (chars n)

def tooLong (n : Int) : Bool := Nat.pow 10 maxDigits ≤ n.natAbs

def ofDigits (digits : List Char) : Nat :=
  digits.foldl (fun n c => 10 * n + (c.toNat - '0'.toNat)) 0

def ofSigned (negative : Bool) (digits : List Char) : Int :=
  if negative then -(ofDigits digits : Int) else ofDigits digits

end Decimal

end ServiceMap
