import ServiceMap.Span.Attributes
import ServiceMap.Span.Identifier

/-!
# OTLP requests

The spans of an OTLP trace export request: an object with resources, each with scopes, each with spans. The names of
fields are in snake case or in camel case. Times are in nanoseconds and are cut to microseconds.

The service that reports the spans is an attribute of the resource; the service on the other side is the attribute
`peer.service` of the span, which does not stay among its tags. A failure in the attributes of a resource ends the
reading; a span with an unfit value is passed over.
-/

namespace ServiceMap.Otlp

open Json (field? fieldOrNull)

/-- The value of a field that has a name in snake case and one in camel case: the first one if it says something, else
the second one, else the given value. -/
def eitherField (fields : List (String × Json)) (snake camel : String) (default : Json) : Json :=
  (fieldOrNull fields snake).orElse ((field? fields camel).getD default)

def readTime (fields : List (String × Json)) (snake camel : String) : Except Failure Int :=
  (eitherField fields snake camel (.int 0)).toInteger

def isErrorCode (code : Json) : Bool :=
  match code with
  | .str s => s == "STATUS_CODE_ERROR"
  | .int n => n == 2
  | .float x => x.equalsInt 2
  | _ => false

/-- The tags with the error that a status reports, its message if it has one. -/
def addStatus (tags : Table AttributeKey Json) : Json → Table AttributeKey Json
  | .obj fields =>
    if isErrorCode (fieldOrNull fields "code") then
      tags.insert (.text "error") ((fieldOrNull fields "message").orElse (.str "true"))
    else tags
  | _ => tags

/-- What an element adds to the annotations: nothing unless it is an object with a name. -/
def readEvent : Json → Except Failure (List Annotation)
  | .obj fields =>
    let name := fieldOrNull fields "name"
    if name.isBlank then .ok []
    else do
      let time ← readTime fields "time_unix_nano" "timeUnixNano"
      return [{ timestamp := Int.fdiv time 1000, value := name }]
  | _ => .ok []

/-- The attributes that have a value, as texts. -/
def tagsOf (attributes : Table AttributeKey Json) : Table AttributeKey String :=
  ⟨attributes.entries.filterMap fun (key, v) =>
    match v with
    | .null => none
    | v => some (key, v.tagText)⟩

/-- The endpoint of a service, if it has a name. -/
def endpointOf (serviceName : String) : Option Endpoint :=
  if serviceName.isEmpty then none else some { serviceName }

def readSpan (localService : String) (fields : List (String × Json)) : Except Failure Span := do
  let traceId := Identifier.normalize (eitherField fields "trace_id" "traceId" (.str ""))
  let id := Identifier.normalize (eitherField fields "span_id" "spanId" (.str ""))
  if traceId.isEmpty || id.isEmpty then .error (.spanWithoutId "trace_id" "span_id")
  let parentId := Identifier.normalize (eitherField fields "parent_span_id" "parentSpanId" (.str ""))
  let start ← readTime fields "start_time_unix_nano" "startTimeUnixNano"
  let stop ← readTime fields "end_time_unix_nano" "endTimeUnixNano"
  let tags := tagsOf (← Attributes.flatten (fieldOrNull fields "attributes"))
  let events := match fieldOrNull fields "events" with
    | .arr items => items
    | _ => []
  let annotations ← events.mapM readEvent
  return {
    traceId, id
    parentId := if parentId.isEmpty then none else some parentId
    kind := .ofJson (fieldOrNull fields "kind")
    name := ((field? fields "name").getD (.str "")).display
    timestamp := Int.fdiv start 1000
    duration := if start < stop then Int.fdiv (stop - start) 1000 else 0
    localEndpoint := endpointOf localService
    remoteEndpoint := endpointOf ((tags.get? (.text "peer.service")).getD "")
    tags := addStatus ((tags.erase (.text "peer.service")).map .str) (fieldOrNull fields "status")
    annotations := annotations.flatten }

/-- The results for the elements of a sequence one after the other, up to the first failure. -/
def collect {α : Type} (read : Json → Except Failure (List α)) (items : List Json) : Except Failure (List α) :=
  return (← items.mapM read).flatten

/-- The elements of an array; nothing else has any. -/
def itemsOf : Json → List Json
  | .arr items => items
  | _ => []

/-- What an element adds to the spans of a service: nothing unless it is an object. -/
def readElement (localService : String) : Json → Except Failure (List Span)
  | .obj fields => orSkip (readSpan localService fields)
  | _ => .ok []

def readScope (localService : String) : Json → Except Failure (List Span)
  | .obj fields => collect (readElement localService) (itemsOf (fieldOrNull fields "spans"))
  | _ => .ok []

def serviceOf (resource : Json) : Except Failure String := do
  let attributes := match resource with
    | .obj fields => fieldOrNull fields "attributes"
    | _ => .null
  let table ← Attributes.flatten attributes
  return (((table.get? (.text "service.name")).getD .null).orElse (.str "")).display

def readResource : Json → Except Failure (List Span)
  | .obj fields => do
    let localService ← serviceOf (fieldOrNull fields "resource")
    let scopes := (fieldOrNull fields "scope_spans").orElse (fieldOrNull fields "scopeSpans")
    collect (readScope localService) (itemsOf scopes)
  | _ => .ok []

def readRequest (fields : List (String × Json)) : Except Failure (List Span) :=
  match (field? fields "resource_spans").getD (fieldOrNull fields "resourceSpans") with
  | .arr resources => collect readResource resources
  | _ => .error .noResourceSpans

end ServiceMap.Otlp
