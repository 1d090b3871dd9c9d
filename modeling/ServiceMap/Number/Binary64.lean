/-!
# Double-precision numbers

The numbers of the 64-bit binary format, held exactly: a finite one is its sign, its significand and its exponent. Every
result is the exact one rounded to the nearest number of the format, a tie going to the even significand, so nothing here
depends on how a machine computes.
-/

namespace ServiceMap

/-- A number of the 64-bit binary format. `finite negative m e` stands for `m · 2 ^ e` under its sign, with
`m < 2 ^ 53` and the least exponent from `-1074` on that allows it, so that each number has one form. The two zeros are
different numbers of the format; not-a-number is one value. -/
inductive Binary64 where
  | nan
  | infinite (negative : Bool)
  | finite (negative : Bool) (significand : Nat) (exponent : Int)
deriving Repr, DecidableEq

namespace Binary64

def leastExponent : Int := -1074

def greatestExponent : Int := 971

def zero (negative : Bool) : Binary64 := .finite negative 0 leastExponent

/-- `n · 2 ^ e` as a quotient of natural numbers. -/
def scaled (n : Nat) (e : Int) : Nat × Nat := (n * Nat.pow 2 e.toNat, Nat.pow 2 (-e).toNat)

/-- The natural number nearest to `num / den`, of two equally near ones the even one. -/
def roundQuotient (num den : Nat) : Nat :=
  let q := num / den
  let twice := 2 * (num % den)
  if twice > den || (twice == den && q % 2 == 1) then q + 1 else q

/-- The exponent of the format for a positive quotient: the one that leaves 53 binary digits before the point, but never
less than the least exponent. -/
def exponentFor (num den : Nat) : Int :=
  let guess : Int := (num.log2 : Int) - den.log2 - 52
  let (n, d) := scaled den guess
  max leastExponent (if num * d < n * Nat.pow 2 52 then guess - 1 else guess)

/-- The number of the format nearest to `num / den`. -/
def ofQuotient (negative : Bool) (num den : Nat) : Binary64 :=
  if num = 0 then zero negative
  else
    let e := exponentFor num den
    let (n, d) := scaled den e
    let m := roundQuotient (num * d) n
    let (m, e) := if m = Nat.pow 2 53 then (Nat.pow 2 52, e + 1) else (m, e)
    if e > greatestExponent then .infinite negative else .finite negative m e

/-- The number of the format nearest to `digits · 10 ^ exponent`. Exponents beyond the range are settled without
computing the power: the digits are at least 1 and less than `10 ^ (log2 digits + 1)`. -/
def ofDecimal (negative : Bool) (digits : Nat) (exponent : Int) : Binary64 :=
  if digits = 0 then zero negative
  else if exponent > 400 then .infinite negative
  else if exponent + digits.log2 + 1 < -400 then zero negative
  else ofQuotient negative (digits * Nat.pow 10 exponent.toNat) (Nat.pow 10 (-exponent).toNat)

def ofInt (n : Int) : Binary64 := ofQuotient (n < 0) n.natAbs 1

/-- The integer between zero and a finite number that is nearest to the number. -/
def truncate? : Binary64 → Option Int
  | .finite negative m e =>
    let (num, den) := scaled m e
    some (if negative then -((num / den : Nat) : Int) else (num / den : Nat))
  | _ => none

def equalsInt (x : Binary64) (n : Int) : Bool :=
  match x with
  | .finite negative m e =>
    let (num, den) := scaled m e
    n.natAbs * den == num && (num == 0 || negative == decide (n < 0))
  | _ => false

def isZero : Binary64 → Bool
  | .finite _ m _ => m == 0
  | _ => false

end Binary64

end ServiceMap
