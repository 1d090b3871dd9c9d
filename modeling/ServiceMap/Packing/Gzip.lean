import ServiceMap.Packing.Checksum
import ServiceMap.Packing.Inflate
import ServiceMap.Storage.Feed

/-!
# Compressed files

A compressed file holds members one after the other, each with a head, packed data, and the checksum and the length of
what was packed. Zeros may stand behind a member. A file without members holds nothing.

What a member holds comes in before its checksum is looked at. It comes in pieces: a piece ends when it is full or when
the packed bytes that were fetched for it are used up. If the packed data are damaged, the piece in which the damage shows
does not come in.
-/

namespace ServiceMap.Packing

def takeExact (count : Nat) (bytes : List UInt8) : Except Failure (List UInt8 × List UInt8) :=
  let taken := bytes.take count
  if taken.length < count then .error .truncated else .ok (taken, bytes.drop count)

/-- The number that some bytes spell, lowest byte first. -/
def ofBytes (bytes : List UInt8) : Nat := bytes.foldr (fun byte n => 256 * n + byte.toNat) 0

def skipText (bytes : List UInt8) : List UInt8 := (bytes.dropWhile (· != 0)).drop 1

/-- Takes the head of a member, whose flags say which optional parts it has: bit 2 a field of a given length, bits 3 and
4 a name and a comment, bit 1 a checksum of the head. -/
def takeHead (bytes : List UInt8) : Except Failure (List UInt8) := do
  let magic := bytes.take 2
  if magic != [0x1f, 0x8b] then .error (.notGzip magic)
  let (head, bytes) ← takeExact 8 (bytes.drop 2)
  if head.head? != some 8 then .error .unknownCompression
  let flags := (head.getD 1 0).toNat
  let bytes ← if flags.testBit 2 then do
      let (length, bytes) ← takeExact 2 bytes
      let (_, bytes) ← takeExact (ofBytes length) bytes
      pure bytes
    else pure bytes
  let bytes := if flags.testBit 3 then skipText bytes else bytes
  let bytes := if flags.testBit 4 then skipText bytes else bytes
  if flags.testBit 1 then return (← takeExact 2 bytes).2 else return bytes

/-- Takes the checksum and the length behind the data of a member, and the zeros behind them. -/
def takeTail (data : Array UInt8) (bytes : List UInt8) : Except Failure (List UInt8) := do
  let (tail, bytes) ← takeExact 8 bytes
  let stored := ofBytes (tail.take 4)
  let computed := crc32 data
  if stored != computed then .error (.wrongChecksum stored computed)
  if ofBytes (tail.drop 4) != data.size % Nat.pow 2 32 then .error .wrongLength
  return bytes.dropWhile (· == 0)

/-! ### Pieces -/

/-- Damage that shows only when there is room for the next byte. -/
def needsRoom (fault : PackingFault) : Bool := fault == .distanceTooFar

/-- How many packed bytes are used up when the next byte has to wait and `limit` of them are there. -/
def usedUp (limit : Nat) (next : UnpackedByte) : Nat :=
  if next.held ≤ 8 * limit then (next.held + 7) / 8 else limit

/-- A feed of one piece, which is left out if it is empty, and possibly a failure behind it. -/
def onePiece (piece : List UnpackedByte) (failure : Option Failure) : Feed where
  pieces := if piece.isEmpty then [] else [piece.map (·.byte)]
  failure

/-- The last piece of unpacked data, if unpacking had to stop. -/
def lastPiece (limit : Nat) (piece : List UnpackedByte) : Option Halt → Feed
  | none => onePiece piece none
  | some .ended => onePiece piece (some .truncated)
  | some (.damaged fault taken) =>
    let shows := taken ≤ 8 * limit && !(needsRoom fault && piece.length == Feed.pieceSize)
    onePiece (if shows then [] else piece) (some (.damaged fault))

/-- The unpacked bytes that are due, in pieces. Of the packed bytes, of which there are `total`, `used` are used up; as
many more as a piece may hold are fetched for the next piece. -/
def deliver (total : Nat) (halt : Option Halt) : (pieces : Nat) → (used : Nat) → (due : List UnpackedByte) → Feed
  | 0, _, _ => {}
  | pieces + 1, used, due =>
    let limit := min (used + Feed.pieceSize) total
    let piece := (due.take Feed.pieceSize).takeWhile (·.ready ≤ 8 * limit)
    match due.drop piece.length with
    | [] => lastPiece limit piece halt
    | next :: rest => (onePiece piece none).append (deliver total halt pieces (usedUp limit next) (next :: rest))

/-- Unpacked data in pieces, from packed data of `total` bytes. A piece that is empty uses up a packed byte. -/
def feedOf (total : Nat) (unpacked : Unpacked) : Feed :=
  let halt := match unpacked.left with
    | .ok _ => none
    | .error halt => some halt
  deliver total halt (unpacked.data.size + total + 1) 0 unpacked.data.toList

/-! ### Members -/

/-- What the members of a compressed file hold, at most `members`. -/
def unpackMembers : (members : Nat) → List UInt8 → Feed
  | 0, _ => {}
  | _, [] => {}
  | members + 1, bytes =>
    match takeHead bytes with
    | .error e => { failure := some e }
    | .ok body =>
      let unpacked := inflate body
      let feed := feedOf body.length unpacked
      match unpacked.left with
      | .error _ => feed
      | .ok source =>
        match takeTail (unpacked.data.map (·.byte)) (body.drop ((source.taken + 7) / 8)) with
        | .error e => { feed with failure := some e }
        | .ok rest => feed.append (unpackMembers members rest)

/-- What a compressed file holds. A member takes more than one byte. -/
def unpack (bytes : List UInt8) : Feed := unpackMembers bytes.length bytes

end ServiceMap.Packing
