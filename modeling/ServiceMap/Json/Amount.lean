import ServiceMap.Json.Equality
import ServiceMap.Json.Writer

/-!
# Amounts

A number as a document gives it: a truth value, an integer or a double. Amounts are compared by what they are worth, with
true as one and false as zero, and shown as they were given.
-/

namespace ServiceMap

/-- A double is less than an integer; not-a-number is less than nothing. -/
def Binary64.isLessThan (x : Binary64) (n : Int) : Bool :=
  match x with
  | .nan => false
  | .infinite negative => negative
  | .finite negative m e =>
    let (num, den) := scaled m e
    (if negative then -(num : Int) else num) < n * den

/-- A number as a document gives it. -/
inductive Amount where
  | truth (b : Bool)
  | whole (n : Int)
  | real (x : Binary64)
deriving Repr, DecidableEq

namespace Amount

/-- The value of a document as an amount. Texts are none, even if they spell a number. -/
def ofJson? : Json → Option Amount
  | .bool b => some (.truth b)
  | .int n => some (.whole n)
  | .float x => some (.real x)
  | _ => none

def toJson : Amount → Json
  | truth b => .bool b
  | whole n => .int n
  | real x => .float x

def isLessThan (a : Amount) (n : Int) : Bool :=
  match a with
  | truth b => (if b then 1 else 0) < n
  | whole m => m < n
  | real x => x.isLessThan n

def text (a : Amount) : String := a.toJson.display

/-- The amount is an integer with more digits than are written. -/
def tooLong : Amount → Bool
  | whole n => Decimal.tooLong n
  | _ => false

end Amount

end ServiceMap
