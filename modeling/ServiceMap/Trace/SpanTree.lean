import ServiceMap.Span.Basic
import ServiceMap.Tree.Builder

/-!
# Trees of traces

The call tree of one trace. The two halves of a remote call may share one span id: the server half is then flagged, or
its id is also the id of a span that is no server. A server half has a key of its own in the tree, stands below the
client half, and takes the spans that name the id as their parent.
-/

namespace ServiceMap

/-- What a span is known by in the tree of its trace. -/
structure SpanKey where
  id : String
  serverHalf : Bool := false
deriving Repr, DecidableEq

def SpanKey.shown (key : SpanKey) : String := if key.serverHalf then key.id ++ " (shared)" else key.id

/-- The tree of a trace. -/
abbrev SpanTree := Tree SpanKey Span

namespace SpanTree

def isSharedId (spans : List Span) (id : String) : Bool :=
  let servers := spans.filter fun s => s.kind == .server && s.id == id
  servers.any (·.shared) || !servers.isEmpty && spans.any fun s => s.kind != .server && s.id == id

def isServerHalf (spans : List Span) (span : Span) : Bool :=
  span.kind == .server && isSharedId spans span.id

def key (spans : List Span) (span : Span) : SpanKey := ⟨span.id, isServerHalf spans span⟩

/-- The id that a span names as its parent. An empty one names none. -/
def namedParent? (span : Span) : Option String := span.parentId.filter (!·.isEmpty)

/-- The key of the span that a span names as its parent: a server half is below the other half, and other spans are
below the server half if their parent has one. -/
def parentKey (spans : List Span) (span : Span) : Option SpanKey :=
  if isServerHalf spans span then some ⟨span.id, false⟩
  else (namedParent? span).map fun id => ⟨id, isSharedId spans id⟩

def entries (spans : List Span) : List (Entry SpanKey Span) :=
  spans.map fun span => { parent := parentKey spans span, id := some (key spans span), value := some span }

/-- The tree of a trace from its entries, whatever their values are. -/
def ofEntries {α : Type} (spans : List Span) (entries : List (Entry SpanKey α)) :
    Except Failure (Tree SpanKey α × List (TreeNote SpanKey)) :=
  match spans with
  | [] => .error .noSpans
  | first :: _ => Tree.ofEntries first.traceId entries

/-- The tree of a trace, and what was noted while it was built. -/
def ofSpans (spans : List Span) : Except Failure (SpanTree × List (TreeNote SpanKey)) :=
  ofEntries spans (entries spans)

end SpanTree

end ServiceMap
