import ServiceMap.Json.Equality
import ServiceMap.Table
import ServiceMap.Text.Blank
import ServiceMap.Text.LetterCase

/-!
# Spans

A span is one operation of a trace, whatever format it was read from: who did it, which operation it is part of, what it
called, and what was noted about it. Names of services are compared without case and without blanks around them.
-/

namespace ServiceMap

/-- The side of a remote call that a span reports. -/
inductive SpanKind where
  | client
  | server
  | producer
  | consumer
  | unset
deriving Repr, DecidableEq

/-- A node of the network. -/
structure Endpoint where
  serviceName : String := ""
  ipv4 : String := ""
  port : Int := 0
deriving Repr, DecidableEq

/-- An event at a point of time, in microseconds. -/
structure Annotation where
  timestamp : Int
  value : Json
deriving Repr, DecidableEq

/-- The name of an attribute. Almost always a text, but documents may use other values. -/
inductive AttributeKey where
  | text (s : String)
  | bool (b : Bool)
  | int (n : Int)
  | float (x : Binary64)
deriving Repr, DecidableEq

namespace AttributeKey

/-- What keys are compared by: numbers by what they are worth, with true as one. -/
inductive Worth where
  | text (s : String)
  | whole (n : Int)
  | other (x : Binary64)
deriving Repr, DecidableEq

def worth : AttributeKey → Worth
  | .text s => .text s
  | .bool b => .whole (if b then 1 else 0)
  | .int n => .whole n
  | .float x =>
    match x.truncate? with
    | some n => if x.equalsInt n then .whole n else .other x
    | none => .other x

instance : BEq AttributeKey := ⟨fun a b => decide (a.worth = b.worth)⟩

instance : EquivBEq AttributeKey where
  rfl := decide_eq_true rfl
  symm h := decide_eq_true (of_decide_eq_true h).symm
  trans h h' := decide_eq_true ((of_decide_eq_true h).trans (of_decide_eq_true h'))

theorem text_beq_text (s t : String) : (text s == text t) = decide (s = t) :=
  decide_eq_decide.mpr ⟨Worth.text.inj, congrArg Worth.text⟩

/-- A value as a key; arrays and objects are none, and neither is null, which never names an attribute. -/
def ofJson? : Json → Option AttributeKey
  | .str s => some (.text s)
  | .bool b => some (.bool b)
  | .int n => some (.int n)
  | .float x => some (.float x)
  | _ => none

def toJson : AttributeKey → Json
  | .text s => .str s
  | .bool b => .bool b
  | .int n => .int n
  | .float x => .float x

end AttributeKey

/-- A span of a trace. Times are in microseconds. -/
structure Span where
  traceId : String
  id : String
  parentId : Option String := none
  kind : SpanKind := .unset
  name : String := ""
  timestamp : Int := 0
  duration : Int := 0
  localEndpoint : Option Endpoint := none
  remoteEndpoint : Option Endpoint := none
  tags : Table AttributeKey Json := .empty
  annotations : List Annotation := []
  shared : Bool := false
deriving Repr, DecidableEq

def Endpoint.service? (endpoint : Endpoint) : Option String :=
  let name := Text.lower (Text.trim endpoint.serviceName)
  if name.isEmpty then none else some name

namespace Span

def localService? (span : Span) : Option String := span.localEndpoint.bind Endpoint.service?

def remoteService? (span : Span) : Option String := span.remoteEndpoint.bind Endpoint.service?

/-- The span is local: it has no kind and does not name both services. -/
def isLocal (span : Span) : Bool :=
  span.kind == .unset && !(span.localService?.isSome && span.remoteService?.isSome)

/-- The span has an error tag, whatever its value, or an error event. -/
def isError (span : Span) : Bool :=
  span.tags.contains (.text "error") || span.annotations.any (·.value.isText "error")

end Span

end ServiceMap
