import ServiceMap.Link.Tally
import ServiceMap.Trace.Grouping
import ServiceMap.Trace.SpanTree

/-!
# From trees to links

Which calls between services a span tree shows. Every span is judged on its own, by its kind, by the services it names,
and by its nearest ancestor that took part in a remote call; local spans in between do not matter.

* A client span with something below it is left to what is below it, as the server knows best who it is.
* A span without a kind counts as a client if it names both services, else it is local and shows no call.
* Producers and consumers talk to a broker, so a messaging span needs both names.
* Any other span may take the name of the calling service from its remote ancestor. A server always does.
* A client whose service is not that of its remote ancestor shows that a call between the two was not reported.
* A call failed if the span or the client half of the same call says so.
-/

namespace ServiceMap

/-- What is noted when a span shows no call, or one that was not reported. -/
inductive LinkNote where
  | localSpan (spanId : String)
  /-- The span is a server at the root and does not know its client. -/
  | unknownClient (spanId : String)
  | unknownBroker (spanId : String)
  | unreportedCall (spanId : String)
  | unknownService (spanId : String)
deriving Repr, DecidableEq

def LinkNote.message : LinkNote → String
  | localSpan spanId => "non remote span; skipping: spanId=" ++ spanId
  | unknownClient spanId => "root's client is unknown; skipping: spanId=" ++ spanId
  | unknownBroker spanId => "cannot link messaging span to its broker; skipping: spanId=" ++ spanId
  | unreportedCall spanId => "detected missing link to client span: spanId=" ++ spanId
  | unknownService spanId => "cannot find remote ancestor; skipping: spanId=" ++ spanId

/-- A call between two services. -/
structure Call where
  pair : ServicePair
  failed : Bool
deriving Repr, DecidableEq

/-- What a span shows: calls, and notes. -/
structure Finding where
  calls : List Call := []
  notes : List LinkNote := []
deriving Repr, DecidableEq

/-- A span and what matters about its place in the tree: whether the walk began there, whether something is below it, and
its nearest ancestor with a kind. -/
structure Place where
  span : Span
  isStart : Bool
  hasChildren : Bool
  remoteAncestor : Option Span
deriving Repr, DecidableEq

namespace Place

/-- The kind that counts for a span: a span without one is a client if it names both services. -/
def effectiveKind (p : Place) : SpanKind :=
  match p.span.kind with
  | .unset => if p.span.isLocal then .unset else .client
  | kind => kind

def ancestorService? (p : Place) : Option String := p.remoteAncestor.bind Span.localService?

/-- The remote ancestor is the client half of the same call. -/
def isHalfOf (span ancestor : Span) : Bool :=
  ancestor.kind == .client && (span.parentId == some ancestor.id || span.id == ancestor.id)

/-- The call failed, by what the span or the client half of the same call says. An ancestor of unknown service is not
asked. -/
def failed (p : Place) : Bool :=
  p.span.isError ||
    match p.remoteAncestor, p.ancestorService? with
    | some ancestor, some _ => isHalfOf p.span ancestor && ancestor.isError
    | _, _ => false

/-- The call from an unknown service to the client, if the client is not of the service of its remote ancestor. -/
def unreportedCall? (p : Place) : Option Call :=
  match p.effectiveKind, p.ancestorService?, p.span.localService? with
  | .client, some ancestor, some service =>
    if ancestor = service then none else some ⟨⟨ancestor, service⟩, false⟩
  | _, _, _ => none

/-- What a span shows whose call goes from one service, if known, to another one, if known, and that has to name both. -/
def messaging (p : Place) (parent child : Option String) : Finding :=
  match parent, child with
  | some parent, some child => { calls := [⟨⟨parent, child⟩, p.span.isError⟩] }
  | _, _ => { notes := [.unknownBroker p.span.id] }

/-- What a span shows that may take the name of the calling service from its remote ancestor. -/
def request (p : Place) (parent child : Option String) : Finding :=
  let before : Finding := match p.unreportedCall? with
    | some call => { calls := [call], notes := [.unreportedCall p.span.id] }
    | none => {}
  let parent := if p.effectiveKind = .server || parent.isNone then p.ancestorService?.or parent else parent
  match parent, child with
  | some parent, some child => { before with calls := before.calls ++ [⟨⟨parent, child⟩, p.failed⟩] }
  | _, _ => { before with notes := before.notes ++ [.unknownService p.span.id] }

def finding (p : Place) : Finding :=
  let here := p.span.localService?
  let there := p.span.remoteService?
  if p.span.kind = .client && p.hasChildren then {}
  else match p.effectiveKind with
    | .unset => { notes := [.localSpan p.span.id] }
    | .server =>
      if p.isStart && there.isNone then { notes := [.unknownClient p.span.id] } else p.request there here
    | .client => p.request here there
    | .consumer =>
      if p.isStart && there.isNone then { notes := [.unknownClient p.span.id] } else p.messaging there here
    | .producer => p.messaging here there

end Place

namespace Graph

variable {ι : Type} [DecidableEq ι]

/-- The nearest ancestor of a node that holds a span with a kind. -/
def remoteAncestor? (g : Graph ι Span) (i : ι) : Option Span :=
  g.findAncestor? (fun node => node.value.filter (·.kind != .unset)) i

/-- What the node shows in a walk that begins at `start`. A node without a span shows nothing. The remote ancestor of a
local span does not matter. -/
def finding (g : Graph ι Span) (start i : ι) : Finding :=
  match g.value? i with
  | none => {}
  | some span => Place.finding {
      span
      isStart := i == start
      hasChildren := !(g.children i).isEmpty
      remoteAncestor := if span.isLocal then none else g.remoteAncestor? i }

/-- What the nodes from `start` down show, in breadth-first order. -/
def findings (g : Graph ι Span) (start : ι) : List Finding := (g.breadthFirst start).map (g.finding start)

end Graph

def Tally.addCall (t : Tally) (call : Call) : Tally := t.add call.pair ⟨1, if call.failed then 1 else 0⟩

def Tally.addFindings (t : Tally) (findings : List Finding) : Tally :=
  (findings.flatMap (·.calls)).foldl addCall t

/-- What is noted while a trace is linked. -/
inductive TraceNote where
  | tree (note : TreeNote SpanKey)
  | link (note : LinkNote)
deriving Repr, DecidableEq

def TraceNote.message : TraceNote → String
  | tree note => note.message SpanKey.shown
  | link note => note.message

/-- The calls of the traces seen so far. -/
structure Linker where
  tally : Tally := {}
deriving Repr, DecidableEq

namespace Linker

def putTree {ι : Type} [DecidableEq ι] (l : Linker) (g : Graph ι Span) (start : ι) : Linker × List TraceNote :=
  let findings := g.findings start
  (⟨l.tally.addFindings findings⟩, (findings.flatMap (·.notes)).map .link)

/-- Adds the calls of a trace; a trace without spans has none. -/
def putTrace (l : Linker) (spans : List Span) : Except Failure (Linker × List TraceNote) :=
  if spans.isEmpty then .ok (l, [])
  else do
    let (tree, treeNotes) ← SpanTree.ofSpans spans
    let (l, notes) := l.putTree tree.graph tree.root
    return (l, treeNotes.map .tree ++ notes)

def putTraces (l : Linker) : List (List Span) → Except Failure (Linker × List TraceNote)
  | [] => .ok (l, [])
  | spans :: rest => do
    let (l, notes) ← l.putTrace spans
    let (l, more) ← l.putTraces rest
    return (l, notes ++ more)

def links (l : Linker) : Except Failure (List Link) := l.tally.links

end Linker

/-- The links that spans of any number of traces show, and what was noted on the way. -/
def linkSpans (strict : Bool) (spans : List Span) : Except Failure (List Link × List TraceNote) := do
  let (l, notes) ← ({} : Linker).putTraces (groupByTrace strict spans).values
  return (← l.links, notes)

end ServiceMap
