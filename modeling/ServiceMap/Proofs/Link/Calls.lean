import ServiceMap.Link.Linker
import ServiceMap.Proofs.Link.Tally
import ServiceMap.Proofs.Results
import ServiceMap.Proofs.Text.LowerCase
import ServiceMap.Proofs.Trace.SpanTree

/-!
# The calls of a trace

Linking never fails: the calls that a trace shows depend on the trace alone, a linker adds them to its tally, and the
names in them are service names, which are not empty and in lower case. So the tally has links, one for each pair, with
the names as they are.
-/

namespace ServiceMap

/-! ### Names -/

/-- A name by which services are known. -/
def IsServiceName (name : String) : Prop := name ≠ "" ∧ Text.lower name = name

instance (name : String) : Decidable (IsServiceName name) :=
  inferInstanceAs (Decidable (name ≠ "" ∧ Text.lower name = name))

theorem isServiceName_lower {name : String} (h : name ≠ "") : IsServiceName (Text.lower name) :=
  ⟨Text.lower_ne_empty h, Text.lower_lower name⟩

def ServicePair.IsNamed (pair : ServicePair) : Prop := IsServiceName pair.parent ∧ IsServiceName pair.child

instance (pair : ServicePair) : Decidable pair.IsNamed :=
  inferInstanceAs (Decidable (IsServiceName pair.parent ∧ IsServiceName pair.child))

theorem Endpoint.isServiceName_of_service? {endpoint : Endpoint} {name : String} (h : endpoint.service? = some name) :
    IsServiceName name := by
  simp only [service?] at h
  split at h
  · simp at h
  · rename_i hempty
    obtain rfl := Option.some.inj h
    exact ⟨by simpa using hempty, Text.lower_lower _⟩

theorem Span.isServiceName_of_localService? {span : Span} {name : String} (h : span.localService? = some name) :
    IsServiceName name := by
  obtain ⟨endpoint, _, hname⟩ := Option.bind_eq_some_iff.mp h
  exact Endpoint.isServiceName_of_service? hname

theorem Span.isServiceName_of_remoteService? {span : Span} {name : String} (h : span.remoteService? = some name) :
    IsServiceName name := by
  obtain ⟨endpoint, _, hname⟩ := Option.bind_eq_some_iff.mp h
  exact Endpoint.isServiceName_of_service? hname

namespace Place

variable {p : Place} {call : Call}

/-- The calls of a request: the one that was not reported, if any, and the one between the services. -/
theorem calls_request (p : Place) (parent child : Option String) : (p.request parent child).calls =
    p.unreportedCall?.toList ++
      match if p.effectiveKind = .server || parent.isNone then p.ancestorService?.or parent else parent, child with
      | some parent, some child => [⟨⟨parent, child⟩, p.failed⟩]
      | _, _ => [] := by
  unfold request
  generalize (if p.effectiveKind = .server || parent.isNone then p.ancestorService?.or parent else parent) = caller
  cases p.unreportedCall? <;> cases caller <;> cases child <;> rfl

/-! The names in a call are names of services of its span or of its remote ancestor, so what holds of all of these holds
of both names. -/

section Names

variable {P : String → Prop}

theorem names_of_messaging {parent child : Option String} (hparent : ∀ name ∈ parent, P name)
    (hchild : ∀ name ∈ child, P name) (h : call ∈ (p.messaging parent child).calls) :
    P call.pair.parent ∧ P call.pair.child := by
  unfold messaging at h
  split at h
  · rw [List.mem_singleton.mp h]
    exact ⟨hparent _ rfl, hchild _ rfl⟩
  · exact absurd h List.not_mem_nil

theorem names_of_unreportedCall? (hlocal : ∀ name ∈ p.span.localService?, P name)
    (hancestor : ∀ name ∈ p.ancestorService?, P name) (h : p.unreportedCall? = some call) :
    P call.pair.parent ∧ P call.pair.child := by
  unfold unreportedCall? at h
  split at h
  · rename_i hparent hchild
    split at h
    · simp at h
    · rw [← Option.some.inj h]
      exact ⟨hancestor _ hparent, hlocal _ hchild⟩
  · simp at h

theorem names_of_request (hlocal : ∀ name ∈ p.span.localService?, P name)
    (hancestor : ∀ name ∈ p.ancestorService?, P name) {parent child : Option String}
    (hparent : ∀ name ∈ parent, P name) (hchild : ∀ name ∈ child, P name)
    (h : call ∈ (p.request parent child).calls) : P call.pair.parent ∧ P call.pair.child := by
  rw [calls_request, List.mem_append, Option.mem_toList] at h
  rcases h with h | h
  · exact names_of_unreportedCall? hlocal hancestor h
  · split at h
    · rename_i hcaller
      rw [List.mem_singleton.mp h]
      refine ⟨?_, hchild _ rfl⟩
      split at hcaller
      · rcases Option.or_eq_some_iff.mp hcaller with hname | ⟨_, hname⟩
        · exact hancestor _ hname
        · exact hparent _ hname
      · exact hparent _ hcaller
    · exact absurd h List.not_mem_nil

theorem names_of_finding (hlocal : ∀ name ∈ p.span.localService?, P name)
    (hremote : ∀ name ∈ p.span.remoteService?, P name) (hancestor : ∀ name ∈ p.ancestorService?, P name)
    (h : call ∈ p.finding.calls) : P call.pair.parent ∧ P call.pair.child := by
  simp only [finding] at h
  split at h
  · exact absurd h List.not_mem_nil
  · split at h
    · exact absurd h List.not_mem_nil
    · split at h
      · exact absurd h List.not_mem_nil
      · exact names_of_request hlocal hancestor hremote hlocal h
    · exact names_of_request hlocal hancestor hlocal hremote h
    · split at h
      · exact absurd h List.not_mem_nil
      · exact names_of_messaging hremote hlocal h
    · exact names_of_messaging hlocal hremote h

end Names

/-- Whatever a span shows is between services with names. -/
theorem isNamed_of_finding (h : call ∈ p.finding.calls) : call.pair.IsNamed := by
  refine names_of_finding (fun _ => Span.isServiceName_of_localService?)
    (fun _ => Span.isServiceName_of_remoteService?) (fun name hname => ?_) h
  obtain ⟨ancestor, _, hlocal⟩ := Option.bind_eq_some_iff.mp hname
  exact Span.isServiceName_of_localService? hlocal

end Place

theorem Graph.exists_of_remoteAncestor? {ι : Type} [DecidableEq ι] {g : Graph ι Span} {i : ι} {span : Span}
    (h : g.remoteAncestor? i = some span) : ∃ p, g.value? p = some span := by
  rw [remoteAncestor?, findAncestor?_eq] at h
  obtain ⟨p, _, hp⟩ := List.exists_of_findSome?_eq_some h
  exact ⟨p, (Option.filter_eq_some_iff.mp hp).1⟩

theorem Graph.isNamed_of_finding {ι : Type} [DecidableEq ι] {g : Graph ι Span} {start i : ι} {call : Call}
    (h : call ∈ (g.finding start i).calls) : call.pair.IsNamed := by
  unfold Graph.finding at h
  split at h
  · exact absurd h List.not_mem_nil
  · exact Place.isNamed_of_finding h

/-! ### Links of tallies -/

/-- A call as what it adds to a tally. -/
def Call.share (call : Call) : Share := (call.pair, ⟨1, if call.failed then 1 else 0⟩)

def Link.pair (link : Link) : ServicePair := ⟨link.parent, link.child⟩

/-- A link as what it adds to a tally. -/
def Link.share (link : Link) : Share := (⟨link.parent, link.child⟩, ⟨link.calls, link.errors⟩)

def Share.link (share : Share) : Link := ⟨share.1.parent, share.1.child, share.2.calls, share.2.errors⟩

/-- The share makes a link as it is. -/
def Share.IsSound (share : Share) : Prop := share.1.IsNamed ∧ 0 < share.2.calls

instance (share : Share) : Decidable share.IsSound := inferInstanceAs (Decidable (share.1.IsNamed ∧ 0 < share.2.calls))

theorem Call.isSound_share {call : Call} (h : call.pair.IsNamed) : Share.IsSound call.share := ⟨h, Nat.one_pos⟩

theorem Share.make_eq {share : Share} (h : share.IsSound) :
    Link.make share.1.parent share.1.child share.2.calls share.2.errors = .ok (Share.link share) := by
  obtain ⟨⟨⟨hparent, hparent'⟩, hchild, hchild'⟩, hcalls⟩ := h
  have hmany : ¬(share.2.calls : Int) < 1 := by omega
  have hnone : ¬(share.2.errors : Int) < 0 := by omega
  simp [Link.make, hparent, hchild, hparent', hchild', hmany, hnone, Share.link]

/-- The link is as linking makes it: between service names, and with at least one call. -/
def Link.IsSound (link : Link) : Prop := link.share.IsSound

instance (link : Link) : Decidable link.IsSound := inferInstanceAs (Decidable link.share.IsSound)

theorem Link.IsSound.make_eq {link : Link} (h : link.IsSound) :
    Link.make link.parent link.child link.calls link.errors = .ok link :=
  Share.make_eq h

/-- The link was made of some names and counts. -/
def Link.IsMade (link : Link) : Prop := ∃ parent child calls errors, Link.make parent child calls errors = .ok link

/-- What is made is sound, whatever it was made of. -/
theorem Link.IsMade.isSound {link : Link} (h : link.IsMade) : link.IsSound := by
  obtain ⟨parent, child, calls, errors, h⟩ := h
  unfold make at h
  split at h
  · simp at h
  · rename_i hnames
    split at h
    · simp at h
    · rename_i hcalls
      split at h
      · simp at h
      · rw [← Except.ok.inj h]
        simp only [Bool.or_eq_true, String.isEmpty_iff, not_or] at hnames
        exact ⟨⟨isServiceName_lower hnames.1, isServiceName_lower hnames.2⟩, by show 0 < calls.toNat; omega⟩

theorem Tally.isSound_shares {l : List Share} (h : ∀ share ∈ l, Share.IsSound share) :
    ∀ share ∈ (({} : Tally).addAll l).shares, Share.IsSound share := by
  intro share hshare
  obtain ⟨hpair, hcounts⟩ := mem_shares_addAll.mp hshare
  obtain ⟨first, hfirst, heq⟩ := List.mem_map.mp hpair
  obtain ⟨hnamed, hpos⟩ := h first hfirst
  refine ⟨heq ▸ hnamed, ?_⟩
  rw [hcounts, ← heq]
  exact Nat.lt_of_lt_of_le hpos (Share.calls_le_sumFor hfirst)

/-- The links of what some shares add up to. -/
def linksOfShares (l : List Share) : List Link := (({} : Tally).addAll l).shares.map Share.link

theorem Tally.links_addAll {l : List Share} (h : ∀ share ∈ l, Share.IsSound share) :
    (({} : Tally).addAll l).links = .ok (linksOfShares l) :=
  mapM_eq_ok fun share hshare => Share.make_eq (isSound_shares h share hshare)

theorem share_linksOfShares (l : List Share) : (linksOfShares l).map Link.share = (({} : Tally).addAll l).shares := by
  rw [linksOfShares, List.map_map]
  exact List.map_id _

theorem map_pair_linksOfShares (l : List Share) : (linksOfShares l).map Link.pair = (({} : Tally).addAll l).pairs := by
  rw [linksOfShares, List.map_map]
  rfl

theorem nodup_pairs_linksOfShares (l : List Share) : ((linksOfShares l).map Link.pair).Nodup :=
  map_pair_linksOfShares l ▸ Tally.nodup_pairs_addAll_empty l

theorem linksOfShares_perm {l l' : List Share} (h : l.Perm l') : (linksOfShares l).Perm (linksOfShares l') :=
  (Tally.shares_addAll_perm h).map _

theorem isSound_of_mem_linksOfShares {l : List Share} (h : ∀ share ∈ l, Share.IsSound share) :
    ∀ link ∈ linksOfShares l, link.IsSound :=
  List.forall_mem_map.mpr fun share hshare => Tally.isSound_shares h share hshare

/-! ### Linking traces -/

/-- The calls that the nodes from `start` down show, in breadth-first order. -/
def Graph.calls {ι : Type} [DecidableEq ι] (g : Graph ι Span) (start : ι) : List Call :=
  (g.findings start).flatMap (·.calls)

theorem Graph.isNamed_of_mem_calls {ι : Type} [DecidableEq ι] {g : Graph ι Span} {start : ι} {call : Call}
    (h : call ∈ g.calls start) : call.pair.IsNamed := by
  obtain ⟨finding, hfinding, hcall⟩ := List.mem_flatMap.mp h
  obtain ⟨i, _, rfl⟩ := List.mem_map.mp hfinding
  exact Graph.isNamed_of_finding hcall

def traceCalls (spans : List Span) : List Call := (SpanTree.finished spans).graph.calls (SpanTree.finished spans).root

def linksOfCalls (calls : List Call) : List Link := linksOfShares (calls.map Call.share)

theorem isSound_share_of_isNamed {calls : List Call} (h : ∀ call ∈ calls, call.pair.IsNamed) :
    ∀ share ∈ calls.map Call.share, Share.IsSound share :=
  List.forall_mem_map.mpr fun call hcall => Call.isSound_share (h call hcall)

/-- The calls that spans of any number of traces show, one trace after the other. -/
def callsOf (strict : Bool) (spans : List Span) : List Call := (groupByTrace strict spans).values.flatMap traceCalls

theorem isNamed_of_mem_traceCalls {spans : List Span} {call : Call} (h : call ∈ traceCalls spans) :
    call.pair.IsNamed :=
  Graph.isNamed_of_mem_calls h

theorem Tally.addFindings_eq (t : Tally) (findings : List Finding) :
    t.addFindings findings = t.addAll ((findings.flatMap (·.calls)).map Call.share) := by
  rw [addFindings, addAll, List.foldl_map]
  rfl

namespace Linker

theorem putTrace_eq (l : Linker) (spans : List Span) :
    ∃ notes, l.putTrace spans = .ok (⟨l.tally.addAll ((traceCalls spans).map Call.share)⟩, notes) := by
  by_cases h : spans = []
  · subst h
    exact ⟨[], rfl⟩
  · obtain ⟨notes, htree⟩ := SpanTree.ofSpans_eq h
    have hsome : spans.isEmpty = false := by simpa using h
    simp only [putTrace, hsome, Bool.false_eq_true, if_false, htree, bind, Except.bind, putTree,
      Tally.addFindings_eq, pure, Except.pure]
    exact ⟨_, rfl⟩

theorem putTraces_eq (l : Linker) (traces : List (List Span)) :
    ∃ notes, l.putTraces traces = .ok (⟨l.tally.addAll ((traces.flatMap traceCalls).map Call.share)⟩, notes) := by
  induction traces generalizing l with
  | nil => exact ⟨[], rfl⟩
  | cons spans traces ih =>
    obtain ⟨notes, htrace⟩ := l.putTrace_eq spans
    obtain ⟨more, hrest⟩ := ih ⟨l.tally.addAll ((traceCalls spans).map Call.share)⟩
    refine ⟨notes ++ more, ?_⟩
    simp only [putTraces, htrace, hrest, bind, Except.bind, pure, Except.pure, List.flatMap_cons, List.map_append,
      Tally.addAll_append]

theorem links_of_calls {calls : List Call} (h : ∀ call ∈ calls, call.pair.IsNamed) :
    (⟨({} : Tally).addAll (calls.map Call.share)⟩ : Linker).links = .ok (linksOfCalls calls) :=
  Tally.links_addAll (isSound_share_of_isNamed h)

end Linker

def traceLinks (spans : List Span) : Except Failure (List Link) := do
  let (l, _) ← ({} : Linker).putTrace spans
  l.links

theorem traceLinks_eq (spans : List Span) : traceLinks spans = .ok (linksOfCalls (traceCalls spans)) := by
  obtain ⟨notes, htrace⟩ := ({} : Linker).putTrace_eq spans
  simp only [traceLinks, htrace, bind, Except.bind]
  exact Linker.links_of_calls fun _ => isNamed_of_mem_traceCalls

theorem isNamed_of_mem_callsOf {strict : Bool} {spans : List Span} {call : Call} (h : call ∈ callsOf strict spans) :
    call.pair.IsNamed := by
  obtain ⟨trace, _, htrace⟩ := List.mem_flatMap.mp h
  exact isNamed_of_mem_traceCalls htrace

/-- The links of spans are those of the calls that their traces show. -/
theorem linkSpans_eq (strict : Bool) (spans : List Span) :
    ∃ notes, linkSpans strict spans = .ok (linksOfCalls (callsOf strict spans), notes) := by
  obtain ⟨notes, htraces⟩ := ({} : Linker).putTraces_eq (groupByTrace strict spans).values
  have hlinks := Linker.links_of_calls fun call (h : call ∈ callsOf strict spans) => isNamed_of_mem_callsOf h
  refine ⟨notes, ?_⟩
  rw [callsOf] at hlinks ⊢
  simp only [linkSpans, htraces, bind, Except.bind, hlinks, pure, Except.pure]

end ServiceMap
