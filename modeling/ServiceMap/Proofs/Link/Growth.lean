import ServiceMap.Proofs.Link.Calls

/-!
# How links grow

A linker may be given traces and walks over their trees in any order, and asked for its links at any time. What it is
given comes to a list of calls, and its links are those of all calls so far: one link for each pair of services, named as
spans of the trees name them, with no more errors than calls. A span shows two calls at most, so a walk adds no more than
that for each span it passes. Links that were there stay in front, and their counts never become less.
-/

namespace ServiceMap

/-! ### What a span adds -/

namespace Place

theorem length_unreportedCall? (p : Place) : p.unreportedCall?.toList.length ≤ 1 := by
  cases p.unreportedCall? <;> simp

theorem length_calls_messaging (p : Place) (parent child : Option String) :
    (p.messaging parent child).calls.length ≤ 2 := by
  unfold messaging
  split
  · exact Nat.le_succ 1
  · exact Nat.zero_le 2

theorem length_calls_request (p : Place) (parent child : Option String) :
    (p.request parent child).calls.length ≤ 2 := by
  have hunreported := p.length_unreportedCall?
  rw [calls_request, List.length_append]
  split
  · exact Nat.add_le_add_right hunreported 1
  · exact Nat.le_succ_of_le hunreported

theorem length_calls_finding (p : Place) : p.finding.calls.length ≤ 2 := by
  have hnone : ([] : List Call).length ≤ 2 := Nat.zero_le 2
  simp only [finding]
  split
  · exact hnone
  · split
    · exact hnone
    · split
      · exact hnone
      · exact p.length_calls_request _ _
    · exact p.length_calls_request _ _
    · split
      · exact hnone
      · exact p.length_calls_messaging _ _
    · exact p.length_calls_messaging _ _

end Place

namespace Tree

variable {κ α : Type} [DecidableEq κ]

/-- The values that a walk from a node passes. -/
def valuesFrom (t : Tree κ α) (start : Slot κ) : List α := (t.graph.breadthFirst start).filterMap t.graph.value?

/-- All values of a tree. -/
def values (t : Tree κ α) : List α := t.valuesFrom t.root

end Tree

namespace SpanTree

/-- The span is named by this service, or names it as the other side. -/
def Mentions (span : Span) (name : String) : Prop := span.localService? = some name ∨ span.remoteService? = some name

variable {spans : List Span}

theorem mem_values_finished {slot : Slot SpanKey} {span : Span}
    (h : (finished spans).graph.value? slot = some span) : span ∈ (finished spans).values := by
  refine List.mem_filterMap.mpr ⟨slot, ?_, h⟩
  rw [(isTree_finished spans).breadthFirst_perm.mem_iff]
  by_contra hout
  simp [Graph.value?_of_not_mem hout] at h

/-- Wherever a walk begins, the names in its calls are those that spans of the tree mention. -/
theorem mentions_of_mem_calls {start : Slot SpanKey} {call : Call} (h : call ∈ (finished spans).graph.calls start) :
    ∀ name ∈ [call.pair.parent, call.pair.child], ∃ span ∈ (finished spans).values, Mentions span name := by
  obtain ⟨finding, hfinding, hcall⟩ := List.mem_flatMap.mp h
  obtain ⟨slot, _, rfl⟩ := List.mem_map.mp hfinding
  unfold Graph.finding at hcall
  split at hcall
  · exact absurd hcall List.not_mem_nil
  · rename_i span hspan
    have hmem := mem_values_finished hspan
    have hnames := Place.names_of_finding (P := fun name => ∃ span ∈ (finished spans).values, Mentions span name)
      (fun name hname => ⟨span, hmem, .inl hname⟩) (fun name hname => ⟨span, hmem, .inr hname⟩) (fun name hname => ?_) hcall
    · simpa using hnames
    · obtain ⟨ancestor, hancestor, hlocal⟩ := Option.bind_eq_some_iff.mp hname
      dsimp only at hancestor
      split at hancestor
      · simp at hancestor
      · obtain ⟨above, habove⟩ := Graph.exists_of_remoteAncestor? hancestor
        exact ⟨ancestor, mem_values_finished habove, .inl hlocal⟩

theorem length_calls_le (t : SpanTree) (start : Slot SpanKey) :
    (t.graph.calls start).length ≤ 2 * (t.valuesFrom start).length := by
  rw [Graph.calls, Graph.findings, Tree.valuesFrom, List.flatMap_map]
  induction t.graph.breadthFirst start with
  | nil => exact Nat.zero_le _
  | cons slot slots ih =>
    rw [List.flatMap_cons, List.length_append, List.filterMap_cons]
    cases hvalue : t.graph.value? slot with
    | none => simpa [Graph.finding, hvalue] using ih
    | some span =>
      have hfinding : (t.graph.finding start slot).calls.length ≤ 2 := by
        simp only [Graph.finding, hvalue]
        exact Place.length_calls_finding _
      rw [List.length_cons]
      omega

end SpanTree

/-! ### What a linker is given -/

/-- What a linker may be given: a trace, or a walk from a node of a tree. -/
inductive LinkRequest where
  | trace (spans : List Span)
  | walk (tree : SpanTree) (start : Slot SpanKey)

namespace LinkRequest

/-- A tree that is walked is that of a trace, and the walk begins at one of its nodes. -/
def IsProper : LinkRequest → Prop
  | trace _ => True
  | walk tree start => (∃ spans notes, SpanTree.ofSpans spans = .ok (tree, notes)) ∧ start ∈ tree.nodes

/-- The tree that is walked and the node where the walk begins. A trace without spans has neither. -/
def walk? : LinkRequest → Option (SpanTree × Slot SpanKey)
  | trace spans => (SpanTree.ofSpans spans).toOption.map fun (tree, _) => (tree, tree.root)
  | walk tree start => some (tree, start)

/-- The spans that are passed. -/
def passed (request : LinkRequest) : List Span :=
  (request.walk?.map fun (tree, start) => tree.valuesFrom start).getD []

/-- All spans of the tree, passed or not. -/
def treeSpans (request : LinkRequest) : List Span := (request.walk?.map fun (tree, _) => tree.values).getD []

def calls (request : LinkRequest) : List Call :=
  (request.walk?.map fun (tree, start) => tree.graph.calls start).getD []

theorem walk?_trace {spans : List Span} (h : spans ≠ []) :
    (trace spans).walk? = some (SpanTree.finished spans, (SpanTree.finished spans).root) := by
  obtain ⟨notes, htree⟩ := SpanTree.ofSpans_eq h
  rw [walk?, htree]
  rfl

theorem calls_trace (spans : List Span) : (trace spans).calls = traceCalls spans := by
  by_cases h : spans = []
  · subst h
    rfl
  · rw [calls, walk?_trace h]
    rfl

/-- Where there is a walk, it is one over the tree of a trace. -/
theorem IsProper.exists_of_walk? {request : LinkRequest} (h : request.IsProper) {tree : SpanTree}
    {start : Slot SpanKey} (hwalk : request.walk? = some (tree, start)) : ∃ spans, tree = SpanTree.finished spans := by
  cases request with
  | trace spans =>
    by_cases hspans : spans = []
    · subst hspans
      simp [walk?, SpanTree.ofSpans, SpanTree.ofEntries, Except.toOption] at hwalk
    · rw [walk?_trace hspans] at hwalk
      exact ⟨spans, (congrArg Prod.fst (Option.some.inj hwalk)).symm⟩
  | walk tree' start' =>
    obtain rfl : tree' = tree := congrArg Prod.fst (Option.some.inj hwalk)
    obtain ⟨⟨spans, notes, htree⟩, _⟩ := h
    have hspans : spans ≠ [] := by
      rintro rfl
      simp [SpanTree.ofSpans, SpanTree.ofEntries] at htree
    obtain ⟨notes', hfinished⟩ := SpanTree.ofSpans_eq hspans
    exact ⟨spans, congrArg Prod.fst (Except.ok.inj (htree.symm.trans hfinished))⟩

theorem IsProper.mentions {request : LinkRequest} (h : request.IsProper) {call : Call} (hcall : call ∈ request.calls) :
    ∀ name ∈ [call.pair.parent, call.pair.child], ∃ span ∈ request.treeSpans, SpanTree.Mentions span name := by
  rw [calls] at hcall
  cases hwalk : request.walk? with
  | none => simp [hwalk] at hcall
  | some walk =>
    obtain ⟨tree, start⟩ := walk
    obtain ⟨spans, rfl⟩ := h.exists_of_walk? hwalk
    rw [hwalk] at hcall
    rw [treeSpans, hwalk]
    exact SpanTree.mentions_of_mem_calls hcall

theorem isNamed_of_mem_flatMap_calls {requests : List LinkRequest} {call : Call} (h : call ∈ requests.flatMap calls) :
    call.pair.IsNamed := by
  obtain ⟨request, _, hcall⟩ := List.mem_flatMap.mp h
  rw [calls] at hcall
  cases hwalk : request.walk? with
  | none => simp [hwalk] at hcall
  | some walk =>
    rw [hwalk] at hcall
    exact Graph.isNamed_of_mem_calls hcall

theorem length_calls_le (request : LinkRequest) : request.calls.length ≤ 2 * request.passed.length := by
  rw [calls, passed]
  cases request.walk? with
  | none => exact Nat.zero_le _
  | some walk => exact SpanTree.length_calls_le walk.1 walk.2

theorem length_flatMap_calls_le (requests : List LinkRequest) :
    (requests.flatMap calls).length ≤ 2 * (requests.flatMap passed).length := by
  induction requests with
  | nil => exact Nat.zero_le _
  | cons request requests ih =>
    have hrequest := request.length_calls_le
    rw [List.flatMap_cons, List.flatMap_cons, List.length_append, List.length_append]
    omega

end LinkRequest

namespace Linker

def handle (l : Linker) : LinkRequest → Except Failure (Linker × List TraceNote)
  | .trace spans => l.putTrace spans
  | .walk tree start => .ok (l.putTree tree.graph start)

def handleAll (l : Linker) : List LinkRequest → Except Failure Linker
  | [] => .ok l
  | request :: requests => do
    let (l, _) ← l.handle request
    l.handleAll requests

/-- Each request adds its calls, and none fails. -/
theorem handle_eq (l : Linker) (request : LinkRequest) :
    ∃ notes, l.handle request = .ok (⟨l.tally.addAll (request.calls.map Call.share)⟩, notes) := by
  cases request with
  | trace spans =>
    rw [LinkRequest.calls_trace]
    exact l.putTrace_eq spans
  | walk tree start =>
    refine ⟨_, congrArg Except.ok (Prod.ext ?_ rfl)⟩
    rw [putTree, Tally.addFindings_eq]
    rfl

theorem handleAll_eq (l : Linker) (requests : List LinkRequest) :
    l.handleAll requests = .ok ⟨l.tally.addAll ((requests.flatMap LinkRequest.calls).map Call.share)⟩ := by
  induction requests generalizing l with
  | nil => rfl
  | cons request requests ih =>
    obtain ⟨notes, hrequest⟩ := l.handle_eq request
    simp only [handleAll, hrequest, bind, Except.bind, ih, List.flatMap_cons, List.map_append, Tally.addAll_append]

end Linker

/-! ### Links over time -/

/-- The links of a linker that was given some requests one after the other. -/
def linksAfter (requests : List LinkRequest) : Except Failure (List Link) := do
  (← ({} : Linker).handleAll requests).links

theorem linksAfter_eq (requests : List LinkRequest) :
    linksAfter requests = .ok (linksOfCalls (requests.flatMap LinkRequest.calls)) := by
  simp only [linksAfter, Linker.handleAll_eq, bind, Except.bind]
  exact Linker.links_of_calls fun _ => LinkRequest.isNamed_of_mem_flatMap_calls

/-- The later links have the earlier ones in front, in the same order, each with at least as many calls and errors. -/
def HaveGrown (earlier later : List Link) : Prop :=
  ∃ front back, later = front ++ back ∧ List.Forall₂
    (fun before after => after.pair = before.pair ∧ before.calls ≤ after.calls ∧ before.errors ≤ after.errors) earlier front

def totalCalls (links : List Link) : Nat := (links.map Link.calls).sum

theorem totalCalls_linksOfCalls (calls : List Call) : totalCalls (linksOfCalls calls) = calls.length := by
  have hone : ((calls.map Call.share).map (·.2.calls)).sum = calls.length := by
    simp [Call.share, Function.comp_def]
  have htotal := Tally.totalCalls_addAll {} (calls.map Call.share)
  rw [hone] at htotal
  rw [totalCalls, linksOfCalls, linksOfShares, List.map_map]
  exact htotal.trans (Nat.zero_add _)

/-- The pairs of more calls come in behind, and what is under a pair never becomes less. -/
theorem haveGrown_linksOfCalls (calls more : List Call) :
    HaveGrown (linksOfCalls calls) (linksOfCalls (calls ++ more)) := by
  generalize ht : ({} : Tally).addAll (calls.map Call.share) = t
  have hnodup : t.pairs.Nodup := ht ▸ Tally.nodup_pairs_addAll_empty _
  have hlater : ({} : Tally).addAll ((calls ++ more).map Call.share) = t.addAll (more.map Call.share) := by
    rw [List.map_append, Tally.addAll_append, ht]
  rw [HaveGrown, linksOfCalls, linksOfCalls, linksOfShares, linksOfShares, ht, hlater, Tally.shares_eq hnodup,
    Tally.shares_eq (Tally.nodup_pairs_addAll hnodup _), Tally.pairs_addAll, withNew_eq_append, List.map_append,
    List.map_append]
  refine ⟨_, _, rfl, ?_⟩
  rw [List.map_map, List.map_map, List.forall₂_map_left_iff, List.forall₂_map_right_iff]
  exact List.forall₂_same.mpr fun pair _ => ⟨rfl, t.countsAt_le_addAll _ pair⟩

theorem errors_le_of_mem_linksOfCalls {calls : List Call} {link : Link} (h : link ∈ linksOfCalls calls) :
    link.errors ≤ link.calls := by
  obtain ⟨share, hshare, rfl⟩ := List.mem_map.mp h
  obtain ⟨_, hcounts⟩ := Tally.mem_shares_addAll.mp hshare
  have hle := Share.errors_sumFor_le (l := calls.map Call.share) ?_ share.1
  · rwa [← hcounts] at hle
  · refine List.forall_mem_map.mpr fun call _ => ?_
    simp only [Call.share]
    split <;> decide

/-- A link is between the services of some call. -/
theorem exists_call_of_mem_linksOfCalls {calls : List Call} {link : Link} (h : link ∈ linksOfCalls calls) :
    ∃ call ∈ calls, call.pair = link.pair := by
  obtain ⟨share, hshare, rfl⟩ := List.mem_map.mp h
  obtain ⟨hpair, _⟩ := Tally.mem_shares_addAll.mp hshare
  rw [List.map_map] at hpair
  exact List.mem_map.mp hpair

/-- What holds of the links of a linker at any time. -/
structure AreConsistent (requests : List LinkRequest) (links : List Link) : Prop where
  nodup_pairs : (links.map Link.pair).Nodup
  calls_pos : ∀ link ∈ links, 1 ≤ link.calls
  errors_le : ∀ link ∈ links, link.errors ≤ link.calls
  names_ne : ∀ link ∈ links, link.parent ≠ "" ∧ link.child ≠ ""
  mentioned : ∀ link ∈ links, ∀ name ∈ [link.parent, link.child],
    ∃ request ∈ requests, ∃ span ∈ request.treeSpans, SpanTree.Mentions span name

theorem areConsistent_linksOfCalls {requests : List LinkRequest} (h : ∀ request ∈ requests, request.IsProper) :
    AreConsistent requests (linksOfCalls (requests.flatMap LinkRequest.calls)) := by
  have hsound : ∀ link ∈ linksOfCalls (requests.flatMap LinkRequest.calls), link.IsSound :=
    isSound_of_mem_linksOfShares (isSound_share_of_isNamed fun _ => LinkRequest.isNamed_of_mem_flatMap_calls)
  exact {
    nodup_pairs := nodup_pairs_linksOfShares _
    calls_pos := fun link hlink => (hsound link hlink).2
    errors_le := fun link hlink => errors_le_of_mem_linksOfCalls hlink
    names_ne := fun link hlink => ⟨(hsound link hlink).1.1.1, (hsound link hlink).1.2.1⟩
    mentioned := fun link hlink name hname => by
      obtain ⟨call, hcall, hpair⟩ := exists_call_of_mem_linksOfCalls hlink
      obtain ⟨request, hrequest, hmem⟩ := List.mem_flatMap.mp hcall
      have hmentions := (h request hrequest).mentions hmem
      rw [hpair] at hmentions
      exact ⟨request, hrequest, hmentions name hname⟩ }

/-- Whatever a linker is given, nothing fails, and its links can be made at any time. They are one for each pair of
services, with at least one call and no more errors than calls, between services that spans of the trees mention. After
more requests the links have grown, by two calls at most for each span that was passed. -/
theorem linksAfter_consistent {requests : List LinkRequest} (h : ∀ request ∈ requests, request.IsProper) :
    ∃ links, linksAfter requests = .ok links ∧ AreConsistent requests links ∧
      ∀ more, ∃ later, linksAfter (requests ++ more) = .ok later ∧ HaveGrown links later ∧
        totalCalls later ≤ totalCalls links + 2 * (more.flatMap LinkRequest.passed).length := by
  refine ⟨_, linksAfter_eq requests, areConsistent_linksOfCalls h, fun more => ⟨_, linksAfter_eq _, ?_, ?_⟩⟩
  · rw [List.flatMap_append]
    exact haveGrown_linksOfCalls _ _
  · rw [totalCalls_linksOfCalls, totalCalls_linksOfCalls, List.flatMap_append, List.length_append]
    exact Nat.add_le_add_left (LinkRequest.length_flatMap_calls_le more) _

/-- A trace, one without spans, and a walk from the inner node of the server half. -/
def sharedRequests : List LinkRequest :=
  [.trace sharedTrace, .trace [], .walk (SpanTree.finished sharedTrace) (.id (some ⟨"a", true⟩))]

theorem linksAfter_consistent_sharedRequests : (∀ request ∈ sharedRequests, request.IsProper) ∧
    ∃ links, linksAfter sharedRequests = .ok links ∧ AreConsistent sharedRequests links ∧
      ∃ later, linksAfter (sharedRequests ++ [.trace sharedTrace]) = .ok later ∧ HaveGrown links later ∧
        totalCalls later ≤ totalCalls links + 2 * ([.trace sharedTrace].flatMap LinkRequest.passed).length := by
  have hproper : ∀ request ∈ sharedRequests, request.IsProper := by
    obtain ⟨notes, htree⟩ := SpanTree.ofSpans_eq (by decide : sharedTrace ≠ [])
    simp only [sharedRequests, List.forall_mem_cons, List.not_mem_nil, false_implies, implies_true, and_true]
    exact ⟨trivial, trivial, ⟨sharedTrace, notes, htree⟩, by decide +kernel⟩
  obtain ⟨links, hlinks, hconsistent, hlater⟩ := linksAfter_consistent hproper
  exact ⟨hproper, links, hlinks, hconsistent, hlater _⟩

end ServiceMap
