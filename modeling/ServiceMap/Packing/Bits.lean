import ServiceMap.Failure

/-!
# Bits

Packed data are read bit by bit, from the lowest bit of each byte to the highest. Numbers come lowest bit first, the bits
of a code first bit first.
-/

namespace ServiceMap.Packing

/-- Why packed data cannot be read further. Damage shows once a number of bits was taken. -/
inductive Halt where
  | ended
  | damaged (fault : PackingFault) (taken : Nat)
deriving Repr, DecidableEq

/-- The bits that are left, and how many were taken before them. -/
structure BitSource where
  taken : Nat
  left : List Bool
deriving Repr, DecidableEq

/-- A computation that takes bits from the front of those that are left. -/
abbrev BitReader := StateT BitSource (Except Halt)

def bitsOfByte (byte : UInt8) : List Bool := (List.range 8).map byte.toNat.testBit

def bitsOf (bytes : List UInt8) : List Bool := bytes.flatMap bitsOfByte

/-- The number with these bits, lowest first. -/
def ofBits (bits : List Bool) : Nat := bits.foldr (fun bit n => 2 * n + bit.toNat) 0

namespace BitReader

def fail {α : Type} (fault : PackingFault) : BitReader α := fun source => .error (.damaged fault source.taken)

def bit : BitReader Bool
  | ⟨_, []⟩ => .error .ended
  | ⟨taken, b :: left⟩ => .ok (b, ⟨taken + 1, left⟩)

/-- Takes a number of `count` bits. -/
def number (count : Nat) : BitReader Nat := fun ⟨taken, left⟩ =>
  let bits := left.take count
  if bits.length < count then .error .ended else .ok (ofBits bits, ⟨taken + count, left.drop count⟩)

def align : BitReader Unit := fun ⟨taken, left⟩ =>
  let skipped := (8 - taken % 8) % 8
  .ok ((), ⟨taken + skipped, left.drop skipped⟩)

end BitReader

end ServiceMap.Packing
