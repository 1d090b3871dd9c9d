import ServiceMap.Packing.Bits

/-!
# Canonical codes

A code gives each symbol a word of bits such that no word begins another one. It is determined by the lengths of the
words: shorter words come before longer ones, and words of one length are in the order of their symbols.
-/

namespace ServiceMap.Packing

/-- A canonical code: how many words there are of each length from 1 on, and the symbols in the order of their words. -/
structure Code where
  counts : List Nat
  symbols : List Nat
deriving Repr, DecidableEq

namespace Code

/-- The code in which the symbols 0, 1, … have words of the given lengths; a length of 0 means that there is no word. -/
def ofLengths (lengths : List Nat) : Code :=
  let used := List.range' 1 (max 1 (lengths.foldl max 0))
  { counts := used.map lengths.count
    symbols := used.flatMap fun length => (lengths.zipIdx.filter (·.1 == length)).map (·.2) }

/-- How many words of the next length would be left over; none if too many words are in use. -/
def spare (counts : List Nat) : Option Nat :=
  counts.foldlM (fun spare count => if 2 * spare < count then none else some (2 * spare - count)) 1

/-- Every sequence of bits begins with a word, or there are no words at all. -/
def isComplete (c : Code) : Bool := c.symbols.isEmpty || spare c.counts == some 0

/-- The code is complete, or its only words have one bit. -/
def isUsable (c : Code) : Bool := c.isComplete || (c.counts.length == 1 && (spare c.counts).isSome)

/-- Takes the rest of a word and finds its symbol. The bits taken so far are the number `code`, the first word of their
length is `first`, and `index` symbols have shorter words. -/
def symbolFrom (symbols : List Nat) : (counts : List Nat) → (code first index : Nat) → BitReader (Option Nat)
  | [], _, _, _ => pure none
  | count :: counts, code, first, index => do
    let code := code + (← BitReader.bit).toNat
    if code < first + count then return symbols[index + (code - first)]?
    else symbolFrom symbols counts (2 * code) (2 * (first + count)) (index + count)

/-- Takes a word and finds its symbol, if the bits begin with a word. -/
def symbol (c : Code) : BitReader (Option Nat) := symbolFrom c.symbols c.counts 0 0 0

end Code

end ServiceMap.Packing
