import ServiceMap.Span.Fields
import ServiceMap.Span.Identifier

/-!
# Zipkin spans

A span as an object of the Zipkin format, version 2, and arrays of them. Arrays may be nested, as one array holds the
spans of a trace and another one the traces.

The fields are taken in a fixed order, because the first failure decides whether the span is passed over.
-/

namespace ServiceMap.Zipkin

open Json (fieldOrNull elements)

/-- An endpoint; a value that is no object is none. -/
def readEndpoint : Json → Except Failure (Option Endpoint)
  | .obj fields => do
    let port ← ((fieldOrNull fields "port").orElse (.int 0)).toInteger
    return some
      { serviceName := ((fieldOrNull fields "serviceName").orElse (.str "")).display
        ipv4 := ((fieldOrNull fields "ipv4").orElse (.str "")).display
        port }
  | _ => .ok none

/-- What an element adds to the annotations: nothing unless it is an object with a value. -/
def readAnnotation : Json → Except Failure (List Annotation)
  | .obj fields =>
    let value := fieldOrNull fields "value"
    if value.isBlank then .ok []
    else do
      let timestamp ← ((fieldOrNull fields "timestamp").orElse (.int 0)).toInteger
      return [{ timestamp, value := .str value.display }]
  | _ => .ok []

/-- The tags, with every value as a text. A value that is no object holds none. -/
def readTags : Json → Table AttributeKey Json
  | .obj fields => .ofList (fields.map fun (name, v) => (.text name, .str v.tagText))
  | _ => .empty

def readSpan (fields : List (String × Json)) : Except Failure Span := do
  let traceId := Identifier.normalize (fieldOrNull fields "traceId")
  let id := Identifier.normalize (fieldOrNull fields "id")
  if traceId.isEmpty || id.isEmpty then .error (.spanWithoutId "traceId" "id")
  let notes ← ((fieldOrNull fields "annotations").orElse (.arr [])).elements
  let annotations ← notes.mapM readAnnotation
  let parentId := Identifier.normalize (fieldOrNull fields "parentId")
  let timestamp ← ((fieldOrNull fields "timestamp").orElse (.int 0)).toInteger
  let duration ← ((fieldOrNull fields "duration").orElse (.int 0)).toInteger
  let localEndpoint ← readEndpoint (fieldOrNull fields "localEndpoint")
  let remoteEndpoint ← readEndpoint (fieldOrNull fields "remoteEndpoint")
  return {
    traceId, id
    parentId := if parentId.isEmpty then none else some parentId
    kind := .ofJson (fieldOrNull fields "kind")
    name := ((fieldOrNull fields "name").orElse (.str "")).display
    timestamp, duration, localEndpoint, remoteEndpoint
    tags := readTags (fieldOrNull fields "tags")
    annotations := annotations.flatten
    shared := !(fieldOrNull fields "shared").isBlank }

mutual

/-- The spans that an element of an array holds. What is neither an array nor an object holds none. -/
def readElement : Json → Except Failure (List Span)
  | .arr items => readSpans items
  | .obj fields => orSkip (readSpan fields)
  | _ => .ok []

def readSpans : List Json → Except Failure (List Span)
  | [] => .ok []
  | item :: items => do
    let spans ← readElement item
    let more ← readSpans items
    return spans ++ more

end

end ServiceMap.Zipkin
