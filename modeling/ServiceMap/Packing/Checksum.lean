/-!
# Checksums

The cyclic redundancy check of 32 bits that compressed files end with, with the polynomial `0xedb88320` over the bits of
each byte from the lowest to the highest.
-/

namespace ServiceMap.Packing

def crcBit (remainder : UInt32) : UInt32 :=
  if remainder &&& 1 = 1 then (remainder >>> 1) ^^^ 0xedb88320 else remainder >>> 1

def crcByte (remainder : UInt32) (byte : UInt8) : UInt32 :=
  Nat.repeat crcBit 8 (remainder ^^^ byte.toUInt32)

def crc32 (bytes : Array UInt8) : Nat := (bytes.foldl crcByte 0xffffffff ^^^ 0xffffffff).toNat

end ServiceMap.Packing
