import ServiceMap.Packing.Code

/-!
# Unpacking

Data packed by the deflate method: blocks that are stored as they are, or written in a fixed code, or in a code of their
own that stands in front of them. Packed blocks hold literal bytes and copies of what was unpacked before.
-/

namespace ServiceMap.Packing

/-- An element of a packed block. -/
inductive Item where
  | literal (byte : UInt8)
  | copy (length distance : Nat)
  | endOfBlock
deriving Repr, DecidableEq

/-- The codes of a packed block: for literals and lengths, and for distances. -/
structure BlockCodes where
  literals : Code
  distances : Code
deriving Repr, DecidableEq

/-! ### Elements -/

/-- The least length of each length symbol, and how many bits more give the length. -/
def lengthClasses : List (Nat × Nat) :=
  [(3, 0), (4, 0), (5, 0), (6, 0), (7, 0), (8, 0), (9, 0), (10, 0), (11, 1), (13, 1), (15, 1), (17, 1), (19, 2),
    (23, 2), (27, 2), (31, 2), (35, 3), (43, 3), (51, 3), (59, 3), (67, 4), (83, 4), (99, 4), (115, 4), (131, 5),
    (163, 5), (195, 5), (227, 5), (258, 0)]

/-- The least distance of each distance symbol, and how many bits more give the distance. -/
def distanceClasses : List (Nat × Nat) :=
  [(1, 0), (2, 0), (3, 0), (4, 0), (5, 1), (7, 1), (9, 2), (13, 2), (17, 3), (25, 3), (33, 4), (49, 4), (65, 5),
    (97, 5), (129, 6), (193, 6), (257, 7), (385, 7), (513, 8), (769, 8), (1025, 9), (1537, 9), (2049, 10), (3073, 10),
    (4097, 11), (6145, 11), (8193, 12), (12289, 12), (16385, 13), (24577, 13)]

/-- Takes what is missing to a number of the class with this index. -/
def classNumber (classes : List (Nat × Nat)) (index : Nat) (fault : PackingFault) : BitReader Nat :=
  match classes[index]? with
  | some (least, bits) => return least + (← BitReader.number bits)
  | none => .fail fault

def readItem (codes : BlockCodes) : BitReader Item := do
  match ← codes.literals.symbol with
  | none => .fail .literalCode
  | some symbol =>
    if symbol < 256 then return .literal (UInt8.ofNat symbol)
    else if symbol = 256 then return .endOfBlock
    else
      let length ← classNumber lengthClasses (symbol - 257) .literalCode
      match ← codes.distances.symbol with
      | none => .fail .distanceCode
      | some symbol => return .copy length (← classNumber distanceClasses symbol .distanceCode)

/-! ### Codes -/

def fixedCodes : BlockCodes where
  literals := .ofLengths
    (List.replicate 144 8 ++ List.replicate 112 9 ++ List.replicate 24 7 ++ List.replicate 8 8)
  distances := .ofLengths (List.replicate 32 5)

/-- The order in which the lengths of the words for lengths are given. -/
def lengthOrder : List Nat := [16, 17, 18, 0, 8, 7, 9, 6, 10, 5, 11, 4, 12, 3, 13, 2, 14, 1, 15]

def readTriples : (count : Nat) → BitReader (List Nat)
  | 0 => return []
  | count + 1 => do
    let n ← BitReader.number 3
    return n :: (← readTriples count)

/-- The lengths that a symbol of a code for lengths stands for, behind the lengths before it: itself, the one before it
repeated, or a number of zeros. -/
def lengthsOf (symbol : Nat) (before : List Nat) : BitReader (List Nat) :=
  if symbol < 16 then pure [symbol]
  else if symbol = 16 then do
    let n ← BitReader.number 2
    match before.getLast? with
    | some length => return List.replicate (3 + n) length
    | none => .fail .lengthRepeat
  else if symbol = 17 then (fun n => List.replicate (3 + n) 0) <$> BitReader.number 3
  else (fun n => List.replicate (11 + n) 0) <$> BitReader.number 7

/-- Takes the lengths of the words of two codes, which are `total` together. If the code for lengths has no words, every
bit stands for a zero. -/
def readLengths (c : Code) (total : Nat) : (steps : Nat) → (lengths : List Nat) → BitReader (List Nat)
  | 0, lengths => pure lengths
  | steps + 1, lengths =>
    if lengths.length ≥ total then pure lengths
    else do
      let more ← lengthsOf ((← c.symbol).getD 0) lengths
      if lengths.length + more.length > total then .fail .lengthRepeat
      else readLengths c total steps (lengths ++ more)

/-- Takes the codes in front of a block that brings its own. -/
def readCodes : BitReader BlockCodes := do
  let literals := 257 + (← BitReader.number 5)
  let distances := 1 + (← BitReader.number 5)
  let given := 4 + (← BitReader.number 4)
  if literals > 286 || distances > 30 then .fail .tooManyCodes
  else
    let triples ← readTriples given
    let lengthCode := Code.ofLengths ((List.range 19).map fun symbol =>
      ((lengthOrder.zip triples).lookup symbol).getD 0)
    if !lengthCode.isComplete then .fail .codeLengths
    else
      let total := literals + distances
      let lengths ← readLengths lengthCode total total []
      let codes : BlockCodes := ⟨.ofLengths (lengths.take literals), .ofLengths (lengths.drop literals)⟩
      if lengths[256]?.getD 0 = 0 then .fail .noEndCode
      else if !codes.literals.isUsable then .fail .literalCodes
      else if !codes.distances.isUsable then .fail .distanceCodes
      else return codes

/-! ### Blocks -/

/-- An unpacked byte. It comes out once `ready` bits of the packed data are there; while there is no room for it, `held` of
them are taken. -/
structure UnpackedByte where
  byte : UInt8
  held : Nat
  ready : Nat
deriving Repr, DecidableEq

/-- What unpacking comes to: the data, and the bits behind them unless it had to stop. -/
structure Unpacked where
  data : Array UnpackedByte
  left : Except Halt BitSource
deriving Repr, DecidableEq

/-- The byte that stands `distance` bytes before the end of the data. -/
def byteBack (distance : Nat) (data : Array UnpackedByte) : UInt8 :=
  (data[data.size - distance]?.map (·.byte)).getD 0

/-- The data with a copy of what stands `distance` bytes before their end. The copy may go on into itself. -/
def copyBack (distance taken : Nat) : (length : Nat) → Array UnpackedByte → Array UnpackedByte
  | 0, data => data
  | length + 1, data => copyBack distance taken length (data.push ⟨byteBack distance data, taken, taken⟩)

/-- Unpacks the elements of a block, at most `items`. -/
def inflateItems (codes : BlockCodes) : (items : Nat) → (data : Array UnpackedByte) → (source : BitSource) → Unpacked
  | 0, data, _ => ⟨data, .error .ended⟩
  | items + 1, data, source =>
    match (readItem codes).run source with
    | .error halt => ⟨data, .error halt⟩
    | .ok (.literal byte, source) => inflateItems codes items (data.push ⟨byte, source.taken, source.taken⟩) source
    | .ok (.endOfBlock, source) => ⟨data, .ok source⟩
    | .ok (.copy length distance, source) =>
      if distance > data.size then ⟨data, .error (.damaged .distanceTooFar source.taken)⟩
      else inflateItems codes items (copyBack distance source.taken length data) source

/-- Takes whole bytes, at most `count`. -/
def takeBytes : (count : Nat) → (data : Array UnpackedByte) → (source : BitSource) → Unpacked
  | 0, data, source => ⟨data, .ok source⟩
  | count + 1, data, source =>
    match (BitReader.number 8).run source with
    | .error halt => ⟨data, .error halt⟩
    | .ok (byte, next) => takeBytes count (data.push ⟨UInt8.ofNat byte, source.taken, next.taken⟩) next

/-- Takes the length of a stored block, which begins at the next whole byte. -/
def readStoredLength : BitReader Nat := do
  BitReader.align
  let length ← BitReader.number 16
  let complement ← BitReader.number 16
  if length + complement = 0xffff then return length else .fail .storedLength

def inflateBlock (kind : Nat) (data : Array UnpackedByte) (source : BitSource) : Unpacked :=
  match kind with
  | 0 =>
    match readStoredLength.run source with
    | .ok (length, source) => takeBytes length data source
    | .error halt => ⟨data, .error halt⟩
  | 1 => inflateItems fixedCodes source.left.length data source
  | 2 =>
    match readCodes.run source with
    | .ok (codes, source) => inflateItems codes source.left.length data source
    | .error halt => ⟨data, .error halt⟩
  | _ => ⟨data, .error (.damaged .blockKind source.taken)⟩

/-- Takes the head of a block: whether it is the last one, and its kind. -/
def readBlockHead : BitReader (Bool × Nat) := do
  let last ← BitReader.bit
  return (last, ← BitReader.number 2)

/-- Unpacks blocks up to the last one, at most `blocks`. -/
def inflateBlocks : (blocks : Nat) → (data : Array UnpackedByte) → (source : BitSource) → Unpacked
  | 0, data, _ => ⟨data, .error .ended⟩
  | blocks + 1, data, source =>
    match readBlockHead.run source with
    | .error halt => ⟨data, .error halt⟩
    | .ok ((last, kind), source) =>
      let block := inflateBlock kind data source
      match block.left with
      | .ok source => if last then ⟨block.data, .ok source⟩ else inflateBlocks blocks block.data source
      | .error _ => block

/-- Unpacks bytes. Every element takes at least one bit, and so does every block. -/
def inflate (bytes : List UInt8) : Unpacked :=
  let bits := bitsOf bytes
  inflateBlocks bits.length #[] ⟨0, bits⟩

end ServiceMap.Packing
