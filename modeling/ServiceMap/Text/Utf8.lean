/-!
# UTF-8

Bytes as text. One reading step looks at the front of the bytes: it either takes one character, or it finds the longest
front part that could still have become a character and says why it did not. Strict reading stops there; lenient reading
puts one replacement character for each such part and goes on after it.
-/

namespace ServiceMap.Text

/-- Why bytes do not spell a character. -/
inductive Utf8Fault where
  | invalidStart
  | invalidContinuation
  | endOfData
deriving Repr, DecidableEq

/-- What stands at the front of some bytes. -/
inductive Utf8Front where
  /-- A character, spelled by `length` bytes. -/
  | char (c : Char) (length : Nat)
  /-- A part of `length` bytes that spells no character. -/
  | bad (fault : Utf8Fault) (length : Nat)
deriving Repr, DecidableEq

/-- How many bytes a character with this first byte takes; 0 for a byte that starts none. -/
def utf8Width (first : UInt8) : Nat :=
  if first < 0x80 then 1
  else if first < 0xc2 then 0
  else if first < 0xe0 then 2
  else if first < 0xf0 then 3
  else if first < 0xf5 then 4
  else 0

/-- The byte carries six bits of a character begun before it. -/
def isContinuation (byte : UInt8) : Bool := 0x80 ≤ byte && byte < 0xc0

/-- The second byte can follow this first byte: it continues it, and the character is neither spelled longer than
needed, nor a surrogate, nor beyond the last code point. -/
def mayFollow (first second : UInt8) : Bool :=
  isContinuation second &&
    !(first == 0xe0 && second < 0xa0) && !(first == 0xed && 0xa0 ≤ second) &&
    !(first == 0xf0 && second < 0x90) && !(first == 0xf4 && 0x90 ≤ second)

/-- Reads the continuation bytes still `needed` for a character of which `taken` bytes spelled `value` so far. -/
def utf8Tail (taken value : Nat) : (needed : Nat) → List UInt8 → Utf8Front
  | 0, _ => .char (Char.ofNat value) taken
  | _ + 1, [] => .bad .endOfData taken
  | needed + 1, byte :: rest =>
    if isContinuation byte then utf8Tail (taken + 1) (value * 0x40 + (byte.toNat - 0x80)) needed rest
    else .bad .invalidContinuation taken

/-- The front of the bytes `first :: rest`. -/
def utf8Front (first : UInt8) (rest : List UInt8) : Utf8Front :=
  let width := utf8Width first
  if width = 0 then .bad .invalidStart 1
  else if width = 1 then .char (Char.ofNat first.toNat) 1
  else match rest with
    | [] => .bad .endOfData 1
    | second :: rest =>
      if mayFollow first second then
        let lead := first.toNat % Nat.pow 2 (7 - width)
        utf8Tail 2 (lead * 0x40 + (second.toNat - 0x80)) (width - 2) rest
      else .bad .invalidContinuation 1

/-- Lenient reading of the bytes left after the first `skipped` ones. -/
def lenientAfter : (skipped : Nat) → List UInt8 → List Char
  | _, [] => []
  | skipped + 1, _ :: rest => lenientAfter skipped rest
  | 0, first :: rest =>
    match utf8Front first rest with
    | .char c length => c :: lenientAfter (length - 1) rest
    | .bad _ length => '\ufffd' :: lenientAfter (length - 1) rest

/-- The text of any bytes, with one replacement character for each part that spells none. -/
def decodeLenient (bytes : List UInt8) : List Char := lenientAfter 0 bytes

/-- Where strict reading stops: the part of `length` bytes at `position`, and all the bytes from there on. -/
structure Utf8Stop where
  fault : Utf8Fault
  position : Nat
  length : Nat
  left : List UInt8
deriving Repr, DecidableEq

/-- More bytes could show what is wrong: the bytes end too early, or they are the first two of the three bytes of a
surrogate, which are judged together. -/
def Utf8Stop.isOpen (stop : Utf8Stop) : Bool :=
  stop.fault == .endOfData ||
    match stop.left with
    | [first, second] => first == 0xed && 0xa0 ≤ second && second < 0xc0
    | _ => false

/-- What strict reading yields: the text it took, and where it stopped unless the bytes were used up. -/
structure Utf8Reading where
  text : List Char
  stop : Option Utf8Stop
deriving Repr, DecidableEq

/-- Strict reading of the bytes left after the first `skipped` ones, of which the first stands at `position`. -/
def strictAfter (position : Nat) : (skipped : Nat) → List UInt8 → Utf8Reading
  | _, [] => ⟨[], none⟩
  | skipped + 1, _ :: rest => strictAfter (position + 1) skipped rest
  | 0, first :: rest =>
    match utf8Front first rest with
    | .char c length =>
      let reading := strictAfter (position + 1) (length - 1) rest
      ⟨c :: reading.text, reading.stop⟩
    | .bad fault length => ⟨[], some ⟨fault, position, length, first :: rest⟩⟩

/-- The text at the front of some bytes, up to the first part that spells no character. -/
def readStrict (bytes : List UInt8) : Utf8Reading := strictAfter 0 0 bytes

end ServiceMap.Text
