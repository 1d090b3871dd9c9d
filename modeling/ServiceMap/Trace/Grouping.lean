import ServiceMap.Span.Basic
import ServiceMap.Span.Identifier

/-!
# Grouping spans into traces

Spans belong to one trace if they have the same trace id. Some tools cut trace ids of 128 bits to their low 64 bits; to
bring such spans together, only the low halves are compared.
-/

namespace ServiceMap

/-- How trace ids are compared: as a whole, or by their low halves only. -/
def Span.groupKey (strict : Bool) (span : Span) : String :=
  if strict then span.traceId else Identifier.lowHalf span.traceId

/-- Elements by a key of theirs. The groups stand in the order in which their keys first occur, the elements of a group
in their order. -/
def groupBy {α κ : Type} [BEq κ] (key : α → κ) (elements : List α) : Table κ (List α) :=
  elements.foldl (fun groups a => groups.alter (key a) fun group => group.getD [] ++ [a]) .empty

def groupByTrace (strict : Bool) (spans : List Span) : Table String (List Span) :=
  groupBy (Span.groupKey strict) spans

end ServiceMap
