import ServiceMap.Span.Otlp
import ServiceMap.Span.Zipkin
import ServiceMap.Text.Lines
import ServiceMap.Text.Utf8
import ServiceMap.Warning

/-!
# Documents and streams of spans

A document is an array of Zipkin spans or an OTLP request. A stream is one document, which may take several lines, or
holds one document on each line. It counts as one document if it is one as a whole; else every line is read on its own,
and a line that cannot be read is passed over with a warning.
-/

namespace ServiceMap.Span

def ofDocument : Json → Except Failure (List Span)
  | .arr items => Zipkin.readSpans items
  | .obj fields => Otlp.readRequest fields
  | _ => .error .unknownDocument

def ofText (text : String) : Except Failure (List Span) := do
  ofDocument (← (Json.read text).mapError .unreadable)

/-- The spans of lines that are documents of their own, the first of them the line with this number. Blank lines count
but hold nothing. -/
def ofLines : (number : Nat) → List (List Char) → Reading (List Span)
  | _, [] => .quiet (.ok [])
  | number, line :: rest =>
    let text := Text.trimOf Text.isBlank line
    if text.isEmpty then ofLines (number + 1) rest
    else
      match ofText (String.ofList text) with
      | .ok spans => (ofLines (number + 1) rest).map (spans ++ ·)
      | .error e =>
        if e.isUnfitValue then (ofLines (number + 1) rest).warned (.line number e) else .quiet (.error e)

def ofStream (lines : List (List Char)) : Reading (List Span) :=
  let content := Text.trimOf Text.isBlank lines.flatten
  if content.isEmpty then .quiet (.ok [])
  else
    match Json.read (String.ofList content) with
    | .error (.misplaced ..) => ofLines 1 lines
    | .error e => .quiet (.error (.unreadable e))
    | .ok document =>
      match ofDocument document with
      | .ok spans => .quiet (.ok spans)
      | .error e => if e.isUnfitValue then .warned (.document e) (.quiet (.ok [])) else .quiet (.error e)

def ofChars (text : List Char) : Reading (List Span) := ofStream (Text.lines text)

/-- The lines of a stream of bytes, each of them read leniently as UTF-8 on its own. -/
def linesOfBytes (bytes : List UInt8) : List (List Char) :=
  (Text.splitAfter (· == 0x0a) bytes).map Text.decodeLenient

def ofBytes (bytes : List UInt8) : Reading (List Span) := ofStream (linesOfBytes bytes)

end ServiceMap.Span
