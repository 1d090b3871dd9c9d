import ServiceMap.Number.Binary64
import ServiceMap.Number.Decimal

/-!
# Shortest decimal text of a double

A finite double is written with the fewest decimal digits that read back as the same double, and of those numerals the
one nearest to it. The digits are found as a point of a decimal grid: going from coarse grids to finer ones, the first
grid with a point among the reals that round to the double gives the fewest digits.
-/

namespace ServiceMap.Binary64

/-- The reals that round to a double `m · 2 ^ e` with `m > 0`, counted in quarters of its last binary place: all
between `low` and `high`, and these two as well when `closed` is set. -/
structure RoundingInterval where
  low : Nat
  value : Nat
  high : Nat
  closed : Bool
deriving Repr, DecidableEq

/-- The interval of the double `m · 2 ^ e`. Below a power of two the doubles lie twice as close. -/
def roundingInterval (m : Nat) (e : Int) : RoundingInterval where
  low := if m = Nat.pow 2 52 && e > leastExponent then 4 * m - 1 else 4 * m - 2
  value := 4 * m
  high := 4 * m + 2
  closed := m % 2 == 0

/-- The point of the grid of step `10 ^ q` nearest to the double `m · 2 ^ e` among those that read back as it, as a
multiple of the step. Of two points equally near the even multiple is taken. -/
def gridPoint? (m : Nat) (e q : Int) : Option Nat :=
  let interval := roundingInterval m e
  let step := Nat.pow 10 q.toNat * Nat.pow 2 (2 - e).toNat
  let quarter := Nat.pow 10 (-q).toNat * Nat.pow 2 (e - 2).toNat
  let readsBack (k : Nat) : Bool :=
    if interval.closed then interval.low * quarter ≤ k * step && k * step ≤ interval.high * quarter
    else interval.low * quarter < k * step && k * step < interval.high * quarter
  let below := interval.value * quarter / step
  [roundQuotient (interval.value * quarter) step, below, below + 1].find? readsBack

/-- The first of some grids that has a point, from step `10 ^ q` to finer ones: the point and the exponent of the
step. -/
def searchGrids (m : Nat) (e : Int) : (grids : Nat) → (q : Int) → Nat × Int
  | 0, q => (0, q)
  | grids + 1, q =>
    match gridPoint? m e q with
    | some k => (k, q)
    | none => searchGrids m e grids (q - 1)

/-- An exponent of ten above that of the double: `log₁₀ 2` lies between 3/10 and 31/100. -/
def coarseExponent (m : Nat) (e : Int) : Int :=
  let binary := m.log2 + e
  max (binary * 31 / 100) (binary * 3 / 10) + 2

/-- The fewest digits that read back as the double `m · 2 ^ e`, and the power of ten they are multiplied with. Seventeen
digits always suffice, and the search starts less than twenty grids above the first digit. -/
def shortest (m : Nat) (e : Int) : Nat × Int := searchGrids m e 40 (coarseExponent m e)

/-! ### The written form

A point is written inside the digits while it stands at most sixteen places to the right of the first digit or four to
the left; beyond that the digits have an exponent, with its sign and at least two digits. -/

def exponentChars (exponent : Int) : List Char :=
  let digits := Decimal.digits exponent.natAbs
  'e' :: (if exponent < 0 then '-' else '+') :: List.replicate (2 - digits.length) '0' ++ digits

/-- The number `0.d₁d₂… · 10 ^ point` with the given digits. -/
def numeralChars (digits : List Char) (point : Int) : List Char :=
  if -4 < point && point ≤ 16 then
    if point ≤ 0 then '0' :: '.' :: List.replicate (-point).toNat '0' ++ digits
    else
      let whole := digits.take point.toNat ++ List.replicate (point.toNat - digits.length) '0'
      let part := digits.drop point.toNat
      whole ++ '.' :: (if part.isEmpty then ['0'] else part)
  else
    match digits with
    | first :: rest => first :: (if rest.isEmpty then [] else '.' :: rest) ++ exponentChars (point - 1)
    | [] => exponentChars (point - 1)

/-- A double in its shortest form, with the given words for what is not finite. -/
def charsWith (infinity nan : List Char) : Binary64 → List Char
  | .nan => nan
  | .infinite negative => if negative then '-' :: infinity else infinity
  | .finite negative m e =>
    let magnitude :=
      if m = 0 then ['0', '.', '0']
      else
        let (digits, q) := shortest m e
        let digits := Decimal.digits digits
        numeralChars digits (digits.length + q)
    if negative then '-' :: magnitude else magnitude

def chars : Binary64 → List Char := charsWith ['i', 'n', 'f'] ['n', 'a', 'n']

end ServiceMap.Binary64
