import ServiceMap.Failure
import ServiceMap.Text.Lines
import ServiceMap.Text.Utf8

/-!
# Feeds

The bytes of a file as they come in: in pieces, and possibly up to a failure. A text can be taken from them piece by
piece, so that the first piece that is no UTF-8 is noticed before what comes after it, or as a whole. In both cases all
kinds of line ends become line feeds.
-/

namespace ServiceMap

/-- Bytes in pieces, and the failure behind them if there is one. -/
structure Feed where
  pieces : List (List UInt8) := []
  failure : Option Failure := none
deriving Repr, DecidableEq

namespace Feed

def pieceSize : Nat := 8192

/-- Bytes in pieces of full size, except for the last one. -/
def cut : (pieces : Nat) → List UInt8 → List (List UInt8)
  | 0, _ => []
  | pieces + 1, bytes =>
    if bytes.isEmpty then [] else bytes.take pieceSize :: cut pieces (bytes.drop pieceSize)

def piecesOf (bytes : List UInt8) : List (List UInt8) := cut (bytes.length / pieceSize + 1) bytes

def ofBytes (bytes : List UInt8) : Feed := { pieces := piecesOf bytes }

/-- One feed and, unless it fails, another one behind it. -/
def append (feed next : Feed) : Feed :=
  match feed.failure with
  | some _ => feed
  | none => ⟨feed.pieces ++ next.pieces, next.failure⟩

/-- Why bytes are no text, in words. -/
def reason : Text.Utf8Fault → String
  | .invalidStart => "invalid start byte"
  | .invalidContinuation => "invalid continuation byte"
  | .endOfData => "unexpected end of data"

def failureOf (stop : Text.Utf8Stop) : Failure :=
  .notUtf8 (reason stop.fault) (stop.left.headD 0) stop.position stop.length

def decode (bytes : List UInt8) : Except Failure (List Char) :=
  let reading := Text.readStrict bytes
  match reading.stop with
  | none => .ok reading.text
  | some stop => .error (failureOf stop)

/-- The text of pieces that come in one after the other. A character may begin in one piece, from which it is `carried`
over, and end in the next. Positions count from the first byte carried over. -/
def decodePieces (failure : Option Failure) : (carried : List UInt8) → List (List UInt8) → Except Failure (List Char)
  | carried, [] =>
    match failure with
    | some e => .error e
    | none => decode carried
  | carried, piece :: pieces =>
    let reading := Text.readStrict (carried ++ piece)
    match reading.stop with
    | none => (reading.text ++ ·) <$> decodePieces failure [] pieces
    | some stop =>
      if stop.isOpen then (reading.text ++ ·) <$> decodePieces failure stop.left pieces
      else .error (failureOf stop)

/-- The text of a feed, taken piece by piece. -/
def text (feed : Feed) : Except Failure (List Char) :=
  Text.unifyLineEnds <$> decodePieces feed.failure [] feed.pieces

/-- The text of a feed, taken as a whole. -/
def wholeText (feed : Feed) : Except Failure (List Char) :=
  match feed.failure with
  | some e => .error e
  | none => Text.unifyLineEnds <$> decode feed.pieces.flatten

end Feed

end ServiceMap
