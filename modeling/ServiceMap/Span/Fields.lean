import ServiceMap.Json.Convert
import ServiceMap.Span.Basic

/-!
# Fields of spans

What the readers of the span formats have in common: how a kind is given, and that a record with an unfit value is passed
over while every other failure ends the reading.
-/

namespace ServiceMap

/-- The capital form of the letters that labels are made of. The dotless i and the long s are the only letters beyond
ASCII whose capital is one of them. -/
def labelCapital (c : Char) : Char :=
  if c = 'ı' then 'I' else if c = 'ſ' then 'S' else c.toUpper

def SpanKind.ofLabel (label : String) : SpanKind :=
  match String.ofList ((Text.trim label).toList.map labelCapital) with
  | "CLIENT" | "SPAN_KIND_CLIENT" => .client
  | "SERVER" | "SPAN_KIND_SERVER" => .server
  | "PRODUCER" | "SPAN_KIND_PRODUCER" => .producer
  | "CONSUMER" | "SPAN_KIND_CONSUMER" => .consumer
  | _ => .unset

def SpanKind.ofNumber (n : Int) : SpanKind :=
  if n = 2 then .server
  else if n = 3 then .client
  else if n = 4 then .producer
  else if n = 5 then .consumer
  else .unset

/-- A kind given by its number or its label. Values of other types, and labels and numbers of no kind, leave it
unset. -/
def SpanKind.ofJson : Json → SpanKind
  | .int n => .ofNumber n
  | .str s => .ofLabel s
  | _ => .unset

/-- What a record adds to the records read: itself, or nothing if it is passed over. -/
def orSkip {α : Type} : Except Failure α → Except Failure (List α)
  | .ok record => .ok [record]
  | .error e => if e.skipsRecord then .ok [] else .error e

end ServiceMap
