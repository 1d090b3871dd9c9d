import ServiceMap.Proofs.Link.Calls

/-!
# Both halves of a remote call

A call that both sides reported has a client half and, below it, a server half, perhaps with local spans in between. The
client half shows no call, as something is below it. The server half shows the call, once, if it is known who called whom:
the client half says who called, and if it does not, the server half may. The call failed if the server half says so, or
if the client half does and names its service.

That the client half has to name its service for its error to count is more than one would ask for: a call that only the
nameless client half knows to have failed is counted as one that did not.
-/

namespace ServiceMap

/-! ### The nearest remote ancestor -/

namespace Graph

section Nearest

variable {ι α β : Type} [DecidableEq ι] {g : Graph ι α} {find : ι → Option β}

/-- A climb that finds nothing before its end finds first what is there. -/
theorem findSome?_ancestorsUpTo {steps bound : Nat} (hpos : 0 < steps) (hle : steps ≤ bound) {i a : ι} {b : β}
    (hclimb : climb g.parent? steps i = some a) (hfound : find a = some b)
    (hbefore : ∀ n j, 0 < n → n < steps → climb g.parent? n i = some j → find j = none) :
    (g.ancestorsUpTo bound i).findSome? find = some b := by
  induction steps generalizing bound i with
  | zero => exact absurd hpos (Nat.lt_irrefl 0)
  | succ steps ih =>
    obtain ⟨bound, rfl⟩ : ∃ rest, bound = rest + 1 := ⟨bound - 1, by omega⟩
    obtain ⟨p, hp, hrest⟩ := Option.bind_eq_some_iff.mp hclimb
    rw [ancestorsUpTo, hp, List.findSome?_cons]
    cases steps with
    | zero =>
      obtain rfl : p = a := Option.some.inj hrest
      rw [hfound]
    | succ steps =>
      rw [hbefore 1 p Nat.one_pos (by omega) (by rw [climb_one, hp])]
      refine ih (Nat.succ_pos steps) (by omega) hrest fun n j hn hlt hj => ?_
      exact hbefore (n + 1) j (Nat.succ_pos n) (by omega) ((climb_succ_of_up hp n).trans hj)

end Nearest

variable {ι : Type} [DecidableEq ι] {g : Graph ι Span}

theorem mem_keys_of_value? {i : ι} {span : Span} (h : g.value? i = some span) : i ∈ g.nodes.keys := by
  by_contra hout
  simp [value?_of_not_mem hout] at h

theorem remoteAncestor?_of_climb {steps : Nat} (hpos : 0 < steps) (hle : steps ≤ g.size) {i a : ι} {span : Span}
    (hclimb : climb g.parent? steps i = some a) (hspan : g.value? a = some span) (hkind : span.kind ≠ .unset)
    (hbefore : ∀ n j s, 0 < n → n < steps → climb g.parent? n i = some j → g.value? j = some s → s.kind = .unset) :
    g.remoteAncestor? i = some span := by
  have hfound : (g.node a).value.filter (·.kind != .unset) = some span := by
    rw [show (g.node a).value = some span from hspan, Option.filter_some, if_pos (by simpa using hkind)]
  rw [remoteAncestor?, findAncestor?_eq, ancestors]
  refine findSome?_ancestorsUpTo hpos hle hclimb hfound fun n j hn hlt hj => ?_
  rw [Option.filter_eq_none_iff]
  intro s hs
  simpa using hbefore n j s hn hlt hj hs

theorem remoteAncestor?_of_parent? {i p : ι} {span : Span} (hp : g.parent? i = some p) (hspan : g.value? p = some span)
    (hkind : span.kind ≠ .unset) : g.remoteAncestor? i = some span := by
  have hpos : 0 < g.size := g.length_keys ▸ List.length_pos_of_mem (mem_keys_of_parent? hp)
  exact remoteAncestor?_of_climb Nat.one_pos hpos (by rw [climb_one, hp]) hspan hkind
    fun n _ _ hn hlt => absurd hlt (by omega)

/-! ### The halves of a call -/

/-- Two nodes hold the halves of one call: the one holds a client span, the other one a server span that names it as its
parent or shares its id, and a climb from the server half meets the client half before any other span with a kind. -/
structure AreHalves (g : Graph ι Span) (client server : ι) (c s : Span) : Prop where
  value?_client : g.value? client = some c
  value?_server : g.value? server = some s
  kind_client : c.kind = .client
  kind_server : s.kind = .server
  sameCall : s.parentId = some c.id ∨ s.id = c.id
  nearest : ∃ steps, 0 < steps ∧ climb g.parent? steps server = some client ∧
    ∀ n j t, 0 < n → n < steps → climb g.parent? n server = some j → g.value? j = some t → t.kind = .unset

theorem areHalves_of_parent? {client server : ι} {c s : Span} (hclient : g.value? client = some c)
    (hserver : g.value? server = some s) (hckind : c.kind = .client) (hskind : s.kind = .server)
    (hsame : s.parentId = some c.id ∨ s.id = c.id) (hparent : g.parent? server = some client) :
    g.AreHalves client server c s where
  value?_client := hclient
  value?_server := hserver
  kind_client := hckind
  kind_server := hskind
  sameCall := hsame
  nearest := ⟨1, Nat.one_pos, by rw [climb_one, hparent], fun n _ _ hpos hlt => absurd hlt (by omega)⟩

end Graph

/-- The call that two halves show, if it is known who called whom. -/
def callOfHalves? (client server : Span) : Option Call :=
  match client.localService?.or server.remoteService?, server.localService? with
  | some parent, some child =>
    some ⟨⟨parent, child⟩, server.isError || (client.localService?.isSome && client.isError)⟩
  | _, _ => none

/-- The call has the errors of both halves, but for that of a client half that fails alone and does not name its
service. -/
theorem failed_callOfHalves_iff {c s : Span} {call : Call} (h : callOfHalves? c s = some call) :
    call.failed = (s.isError || c.isError) ↔ ¬(s.isError = false ∧ c.isError = true ∧ c.localService? = none) := by
  have hfailed : call.failed = (s.isError || (c.localService?.isSome && c.isError)) := by
    unfold callOfHalves? at h
    split at h
    · rw [← Option.some.inj h]
    · simp at h
  rw [hfailed]
  cases c.localService? <;> cases s.isError <;> cases c.isError <;> simp

/-- What a server span shows whose remote ancestor is the client half of the same call. -/
theorem Place.calls_finding_of_halves {c s : Span} (hc : c.kind = .client) (hs : s.kind = .server)
    (hsame : s.parentId = some c.id ∨ s.id = c.id) (hasChildren : Bool) :
    (finding ⟨s, false, hasChildren, some c⟩).calls = (callOfHalves? c s).toList := by
  have hkind : effectiveKind ⟨s, false, hasChildren, some c⟩ = .server := by simp only [effectiveKind, hs]
  have hservice : ancestorService? ⟨s, false, hasChildren, some c⟩ = c.localService? := rfl
  have hreported : unreportedCall? ⟨s, false, hasChildren, some c⟩ = none := by simp only [unreportedCall?, hkind]
  have hhalf : isHalfOf s c = true := by simpa [isHalfOf, hc] using hsame
  have hfailed : failed ⟨s, false, hasChildren, some c⟩ = (s.isError || (c.localService?.isSome && c.isError)) := by
    rw [failed, hservice]
    cases c.localService? with
    | none => simp
    | some name => simp [hhalf]
  have hcalls : (finding ⟨s, false, hasChildren, some c⟩).calls =
      (request ⟨s, false, hasChildren, some c⟩ s.remoteService? s.localService?).calls := by
    simp [finding, hs, hkind]
  rw [hcalls, calls_request, hreported, hkind, hservice, hfailed, callOfHalves?]
  cases c.localService?.or s.remoteService? <;> cases s.localService? <;> rfl

namespace Graph.AreHalves

variable {ι : Type} [DecidableEq ι] {g : Graph ι Span} {client server : ι} {c s : Span}
  (h : g.AreHalves client server c s)
include h

/-- The client half has something below it. -/
theorem children_client_ne_nil {root : ι} (hg : g.IsTree root) : g.children client ≠ [] := by
  obtain ⟨steps, hpos, hclimb, _⟩ := h.nearest
  obtain ⟨below, rfl⟩ : ∃ below, steps = below + 1 := ⟨steps - 1, by omega⟩
  rw [climb_add below 1, Option.bind_eq_some_iff] at hclimb
  obtain ⟨child, _, hchild⟩ := hclimb
  rw [climb_one] at hchild
  exact List.ne_nil_of_mem (hg.mem_children_iff.mpr hchild)

theorem client_mem_keys : client ∈ g.nodes.keys := mem_keys_of_value? h.value?_client

theorem server_mem_keys : server ∈ g.nodes.keys := mem_keys_of_value? h.value?_server

theorem server_ne_client : server ≠ client := by
  rintro rfl
  have hspan : s = c := Option.some.inj (h.value?_server.symm.trans h.value?_client)
  have hkind := h.kind_server
  rw [hspan, h.kind_client] at hkind
  exact SpanKind.noConfusion hkind

theorem calls_finding_client {root : ι} (hg : g.IsTree root) : (g.finding root client).calls = [] := by
  have hchildren : (g.children client).isEmpty = false := by simpa using h.children_client_ne_nil hg
  rw [Graph.finding, h.value?_client]
  simp [Place.finding, h.kind_client, hchildren]

theorem remoteAncestor?_server {root : ι} (hg : g.IsTree root) : g.remoteAncestor? server = some c := by
  obtain ⟨steps, hpos, hclimb, hbefore⟩ := h.nearest
  have hle : steps ≤ g.size := by
    rw [← g.length_keys]
    exact hg.acyclic.steps_le_length (fun _ _ => mem_keys_of_parent?) hclimb
  exact remoteAncestor?_of_climb hpos hle hclimb h.value?_client (by simp [h.kind_client]) hbefore

theorem server_ne_root {root : ι} (hg : g.IsTree root) : server ≠ root := by
  rintro rfl
  obtain ⟨steps, hpos, hclimb, _⟩ := h.nearest
  obtain ⟨rest, rfl⟩ : ∃ rest, steps = rest + 1 := ⟨steps - 1, by omega⟩
  rw [climb_succ, hg.parent?_root] at hclimb
  simp at hclimb

theorem calls_finding_server {root : ι} (hg : g.IsTree root) :
    (g.finding root server).calls = (callOfHalves? c s).toList := by
  have hlocal : s.isLocal = false := by simp [Span.isLocal, h.kind_server]
  have hstart : (server == root) = false := by simpa using h.server_ne_root hg
  rw [Graph.finding, h.value?_server]
  simp only [hlocal, hstart, Bool.false_eq_true, if_false, h.remoteAncestor?_server hg]
  exact Place.calls_finding_of_halves h.kind_client h.kind_server h.sameCall _

end Graph.AreHalves

/-! ### What is counted -/

/-- A walk adds what each node shows once, so what one node shows may be told from what the others show. -/
theorem Linker.countsAt_putTree {ι : Type} [DecidableEq ι] (l : Linker) (g : Graph ι Span) (root : ι) {nodes : List ι}
    (hnodes : (g.breadthFirst root).Perm nodes) (pair : ServicePair) : (l.putTree g root).1.tally.countsAt pair =
      (l.tally.countsAt pair).plus (Share.sumFor pair ((nodes.flatMap fun i => (g.finding root i).calls).map Call.share)) := by
  have hcalls : (g.findings root).flatMap (·.calls) = (g.breadthFirst root).flatMap fun i => (g.finding root i).calls := by
    rw [Graph.findings, List.flatMap_map]
  rw [putTree, Tally.addFindings_eq, Tally.countsAt_addAll, hcalls]
  exact congrArg _ (Share.sumFor_perm ((hnodes.flatMap_right _).map _) pair)

namespace SpanTree

/-- The calls that the nodes of a tree show, except for some of them. -/
def callsWithout (t : SpanTree) (nodes : List (Slot SpanKey)) : List Call :=
  (t.nodes.diff nodes).flatMap fun i => (t.graph.finding t.root i).calls

/-- In the tree of a trace both halves of a call have one node each. The client half shows no call. The server half shows
the call of the two halves, which failed if one of them says so, unless that is a client half without a service. A walk
over the tree counts it once, besides what the other nodes show. -/
theorem counts_of_halves {spans : List Span} (hspans : spans ≠ []) : ∃ tree notes, ofSpans spans = .ok (tree, notes) ∧
    ∀ client server c s, tree.graph.AreHalves client server c s →
      tree.nodes.count client = 1 ∧ tree.nodes.count server = 1 ∧
      (tree.graph.finding tree.root client).calls = [] ∧
      (tree.graph.finding tree.root server).calls = (callOfHalves? c s).toList ∧
      (∀ call ∈ callOfHalves? c s, call.failed = (s.isError || c.isError) ↔
        ¬(s.isError = false ∧ c.isError = true ∧ c.localService? = none)) ∧
      ∀ (l : Linker) (pair : ServicePair), (l.putTree tree.graph tree.root).1.tally.countsAt pair =
        ((l.tally.countsAt pair).plus (Share.sumFor pair ((callOfHalves? c s).toList.map Call.share))).plus
          (Share.sumFor pair ((callsWithout tree [client, server]).map Call.share)) := by
  obtain ⟨notes, htree⟩ := ofSpans_eq hspans
  refine ⟨finished spans, notes, htree, fun client server c s h => ?_⟩
  have hg := isTree_finished spans
  have hperm := hg.breadthFirst_perm
  have hnodup : (finished spans).nodes.Nodup := hperm.nodup_iff.mpr hg.keys_nodup
  have hclient : client ∈ (finished spans).nodes := hperm.mem_iff.mpr h.client_mem_keys
  have hserver : server ∈ (finished spans).nodes := hperm.mem_iff.mpr h.server_mem_keys
  refine ⟨List.count_eq_one_of_mem hnodup hclient, List.count_eq_one_of_mem hnodup hserver, h.calls_finding_client hg,
    h.calls_finding_server hg, fun _ => failed_callOfHalves_iff, fun l pair => ?_⟩
  have hnodes : (finished spans).nodes.Perm (client :: server :: (finished spans).nodes.diff [client, server]) := by
    have hrest := List.perm_cons_erase ((List.mem_erase_of_ne h.server_ne_client).mpr hserver)
    rw [List.diff_cons, List.diff_cons, List.diff_nil]
    exact (List.perm_cons_erase hclient).trans (hrest.cons client)
  rw [l.countsAt_putTree _ _ hnodes, List.flatMap_cons, List.flatMap_cons, h.calls_finding_client hg,
    h.calls_finding_server hg, List.nil_append, List.map_append, Share.sumFor_append, Counts.plus_assoc]
  rfl

theorem counts_of_halves_sharedTrace : sharedTrace ≠ [] ∧ ∃ tree notes client server c s,
    ofSpans sharedTrace = .ok (tree, notes) ∧ tree.graph.AreHalves client server c s ∧
      tree.nodes.count client = 1 ∧ tree.nodes.count server = 1 ∧
      (tree.graph.finding tree.root client).calls = [] ∧
      (tree.graph.finding tree.root server).calls = (callOfHalves? c s).toList ∧
      (∀ call ∈ callOfHalves? c s, call.failed = (s.isError || c.isError) ↔
        ¬(s.isError = false ∧ c.isError = true ∧ c.localService? = none)) ∧
      ∀ (l : Linker) (pair : ServicePair), (l.putTree tree.graph tree.root).1.tally.countsAt pair =
        ((l.tally.countsAt pair).plus (Share.sumFor pair ((callOfHalves? c s).toList.map Call.share))).plus
          (Share.sumFor pair ((callsWithout tree [client, server]).map Call.share)) := by
  have hspans : sharedTrace ≠ [] := by decide
  obtain ⟨tree, notes, htree, hcounts⟩ := counts_of_halves hspans
  obtain ⟨notes', hfinished⟩ := ofSpans_eq hspans
  obtain rfl : tree = finished sharedTrace := congrArg Prod.fst (Except.ok.inj (htree.symm.trans hfinished))
  have hhalves : (finished sharedTrace).graph.AreHalves (.id (some ⟨"a", false⟩)) (.id (some ⟨"a", true⟩))
      sharedTrace[0] sharedTrace[1] := by
    apply Graph.areHalves_of_parent?
    all_goals decide +kernel
  exact ⟨hspans, _, _, _, _, _, _, htree, hhalves, hcounts _ _ _ _ hhalves⟩

/-- A failed call from a client that does not name its service to `api`, which knows to be called by `web`. -/
def namelessClient : List Span := [
  { traceId := "7", id := "a", kind := .client, tags := .ofList [(.text "error", .str "503")] },
  { traceId := "7", id := "b", parentId := some "a", kind := .server, localEndpoint := some { serviceName := "api" },
    remoteEndpoint := some { serviceName := "web" } }]

/-- The error of a nameless client half is lost. -/
theorem error_of_namelessClient_lost : ∃ tree notes client server c s,
    ofSpans namelessClient = .ok (tree, notes) ∧ tree.graph.AreHalves client server c s ∧
      (s.isError || c.isError) = true ∧ (tree.graph.finding tree.root server).calls = [⟨⟨"web", "api"⟩, false⟩] ∧
      traceLinks namelessClient = .ok [⟨"web", "api", 1, 0⟩] := by
  have hspans : namelessClient ≠ [] := by decide
  obtain ⟨notes, htree⟩ := ofSpans_eq hspans
  have hhalves : (finished namelessClient).graph.AreHalves (.id (some ⟨"a", false⟩)) (.id (some ⟨"b", false⟩))
      namelessClient[0] namelessClient[1] := by
    apply Graph.areHalves_of_parent?
    all_goals decide +kernel
  refine ⟨_, _, _, _, _, _, htree, hhalves, by decide +kernel, by decide +kernel, ?_⟩
  rw [traceLinks_eq]
  exact congrArg Except.ok (by decide +kernel)

end SpanTree

end ServiceMap
