import ServiceMap.Proofs.Text.Utf8
import ServiceMap.Span.Document

/-!
# Streams of bytes

A stream of bytes is split into lines before it is read as text. It comes to the same as the stream of the text that all
the bytes together are read as, whatever bytes they are: a character that a line feed cuts off, a byte that starts none
and a character spelled too long are replaced in the same way in both. So a stream of the bytes of a text is the stream
of the text.
-/

namespace ServiceMap.Span

theorem linesOfBytes_eq (bytes : List UInt8) : linesOfBytes bytes = Text.lines (Text.decodeLenient bytes) :=
  Text.map_decodeLenient_splitAfter bytes

/-- The three bytes of a euro sign with a line feed before the last one. -/
example : linesOfBytes [0xe2, 0x82, 0x0a, 0xac] = [['\ufffd', '\n'], ['\ufffd']] := by decide

/-- Bytes and the text they are read as are streams of the same spans, with the same warnings or the same failure. -/
theorem ofBytes_eq_ofChars : (∀ bytes, ofBytes bytes = ofChars (Text.decodeLenient bytes)) ∧
    ∀ text : String, ofBytes text.toUTF8.toList = ofChars text.toList := by
  have hread : ∀ bytes, ofBytes bytes = ofChars (Text.decodeLenient bytes) := by
    intro bytes
    rw [ofBytes, ofChars, linesOfBytes_eq]
  refine ⟨hread, fun text => ?_⟩
  rw [hread, Text.decodeLenient_toUTF8]

end ServiceMap.Span
