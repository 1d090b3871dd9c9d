import ServiceMap.Proofs.Link.Order
import ServiceMap.Proofs.Tree.Interposed

/-!
# Local spans

Local spans do not matter for linking, and neither do nodes without a span. Put between a node and its parent, they show
no call, nothing is found at them, and for the other nodes nothing changes that counts: whether something is below a
node, whether the walk begins there, and which span is its nearest ancestor with a kind. So with any number of them a
tree has the links that it has without.
-/

namespace ServiceMap

/-- Nothing is there, or a local span. -/
def IsSilent (value : Option Span) : Prop := ∀ span ∈ value, span.isLocal = true

theorem Span.kind_of_isLocal {span : Span} (h : span.isLocal = true) : span.kind = .unset := by
  rw [isLocal, Bool.and_eq_true, beq_iff_eq] at h
  exact h.1

theorem IsSilent.filter_kind {value : Option Span} (h : IsSilent value) : value.filter (·.kind != .unset) = none := by
  cases value with
  | none => rfl
  | some span => simp [Span.kind_of_isLocal (h span rfl)]

namespace Graph

variable {ι : Type} [DecidableEq ι]

theorem calls_finding_of_isSilent {g : Graph ι Span} {i : ι} (h : IsSilent (g.value? i)) (start : ι) :
    (g.finding start i).calls = [] := by
  rw [Graph.finding]
  cases hvalue : g.value? i with
  | none => rfl
  | some span =>
    have hlocal := h span hvalue
    simp [Place.finding, Place.effectiveKind, Span.kind_of_isLocal hlocal, hlocal]

/-- The calls of a tree are those of its nodes, in whatever order they are visited. -/
theorem IsTree.calls_perm_keys {g : Graph ι Span} {root : ι} (h : g.IsTree root) :
    (g.calls root).Perm (g.nodes.keys.flatMap fun i => (g.finding root i).calls) := by
  rw [Graph.calls, Graph.findings, List.flatMap_map]
  exact h.breadthFirst_perm.flatMap_right _

/-! ### One silent node -/

namespace IsTree

variable {g : Graph ι Span} {root parent child new : ι} {value : Option Span} (h : g.IsTree root)
  (hparent : g.parent? child = some parent) (hnew : new ∉ g.nodes.keys) (hvalue : IsSilent value)
include h hparent hnew hvalue

theorem remoteAncestor?_interpose {i : ι} (hi : i ≠ new) :
    (g.interpose parent child new value).remoteAncestor? i = g.remoteAncestor? i := by
  -- At the new node there is as little to be found as there was before it was there.
  have hfind : ∀ a, ((g.interpose parent child new value).node a).value.filter (·.kind != .unset) =
      (g.node a).value.filter (·.kind != .unset) := by
    intro a
    have hnode := value?_interpose g parent child new value a
    rw [value?, value?] at hnode
    rw [hnode]
    split
    · rename_i ha
      rw [ha, node_of_not_mem hnew, hvalue.filter_kind]
      rfl
    · rfl
  have hnone : (g.node new).value.filter (·.kind != .unset) = none := by
    rw [node_of_not_mem hnew]
    rfl
  simp only [Graph.remoteAncestor?, findAncestor?_eq, hfind]
  exact h.findSome?_ancestors_interpose hparent hnew value hnone hi

theorem finding_interpose {i : ι} (hi : i ≠ new) :
    (g.interpose parent child new value).finding root i = g.finding root i := by
  have hspan : (g.interpose parent child new value).value? i = g.value? i := by rw [value?_interpose, if_neg hi]
  rw [Graph.finding, Graph.finding, hspan]
  simp only [isEmpty_children_interpose g parent child new value hi, h.remoteAncestor?_interpose hparent hnew hvalue hi]

theorem calls_interpose_perm : ((g.interpose parent child new value).calls root).Perm (g.calls root) := by
  have hkeys := keys_interpose g parent child new value (h.mem_keys_of_parent? hparent)
    (Graph.mem_keys_of_parent? hparent) hnew
  have hsilent : IsSilent ((g.interpose parent child new value).value? new) := by
    rwa [value?_interpose, if_pos rfl]
  have hold : ∀ i ∈ g.nodes.keys, ((g.interpose parent child new value).finding root i).calls = (g.finding root i).calls :=
    fun i hi => congrArg _ (h.finding_interpose hparent hnew hvalue fun heq => hnew (heq ▸ hi))
  have hnodes : ((g.nodes.keys ++ [new]).flatMap fun i => ((g.interpose parent child new value).finding root i).calls) =
      g.nodes.keys.flatMap fun i => (g.finding root i).calls := by
    rw [List.flatMap_append, List.flatMap_congr hold, List.flatMap_singleton, calls_finding_of_isSilent hsilent,
      List.append_nil]
  have hinterposed := (h.interpose hparent hnew value).calls_perm_keys
  rw [hkeys, hnodes] at hinterposed
  exact hinterposed.trans h.calls_perm_keys.symm

end IsTree

/-! ### Any number of silent nodes -/

theorem IsTree.calls_interposeAll_perm {g : Graph ι Span} {root parent child : ι} (h : g.IsTree root)
    (hparent : g.parent? child = some parent) {news : List (ι × Option Span)} (hnew : g.AreNew news)
    (hvalues : ∀ new ∈ news, IsSilent new.2) : ((g.interposeAll parent child news).calls root).Perm (g.calls root) := by
  induction news generalizing g parent with
  | nil => exact .refl _
  | cons first rest ih =>
    obtain ⟨new, value⟩ := first
    have hout : new ∉ g.nodes.keys := hnew.not_mem _ List.mem_cons_self
    have hrest := ih (h.interpose hparent hout value) (parent?_interpose_child value hparent hout)
      (hnew.interpose h hparent) fun other hother => hvalues other (List.mem_cons_of_mem _ hother)
    exact hrest.trans (h.calls_interpose_perm hparent hout (hvalues _ List.mem_cons_self))

end Graph

namespace Linker

theorem links_putTree {ι : Type} [DecidableEq ι] (g : Graph ι Span) (root : ι) :
    (({} : Linker).putTree g root).1.links = .ok (linksOfCalls (g.calls root)) := by
  rw [putTree, Tally.addFindings_eq]
  exact links_of_calls fun _ => Graph.isNamed_of_mem_calls

/-- Local spans, and nodes without a span, are transparent: however many of them stand between a node and its parent, the
tree still is one and has the same links, which are the same calls and errors for the same pairs of services. -/
theorem links_interposeAll {ι : Type} [DecidableEq ι] {g : Graph ι Span} {root parent child : ι} (h : g.IsTree root)
    (hparent : g.parent? child = some parent) {news : List (ι × Option Span)} (hnew : g.AreNew news)
    (hvalues : ∀ new ∈ news, ∀ span ∈ new.2, span.isLocal = true) :
    (g.interposeAll parent child news).IsTree root ∧
      ∃ links links', (({} : Linker).putTree g root).1.links = .ok links ∧
        (({} : Linker).putTree (g.interposeAll parent child news) root).1.links = .ok links' ∧ links.Perm links' ∧
        (links.map Link.pair).Nodup ∧ (links'.map Link.pair).Nodup :=
  ⟨h.interposeAll hparent hnew, linksOfCalls (g.calls root), linksOfCalls ((g.interposeAll parent child news).calls root),
    links_putTree g root, links_putTree _ root,
    linksOfCalls_perm (h.calls_interposeAll_perm hparent hnew hvalues).symm, nodup_pairs_linksOfCalls _,
    nodup_pairs_linksOfCalls _⟩

/-- A node without a span and a local span, which names its service but not another one. -/
def silentNodes : List (Slot SpanKey × Option Span) := [
  (.id (some ⟨"m", false⟩), none),
  (.id (some ⟨"n", false⟩), some {
    traceId := "7", id := "n", parentId := some "m", localEndpoint := some { serviceName := "queue" } })]

theorem links_interposeAll_sharedTrace :
    let tree := SpanTree.finished sharedTrace
    let interposed := tree.graph.interposeAll (.id (some ⟨"a", true⟩)) (.id (some ⟨"b", false⟩)) silentNodes
    interposed.IsTree tree.root ∧
      ∃ links links', (({} : Linker).putTree tree.graph tree.root).1.links = .ok links ∧
        (({} : Linker).putTree interposed tree.root).1.links = .ok links' ∧ links.Perm links' ∧
        (links.map Link.pair).Nodup ∧ (links'.map Link.pair).Nodup :=
  links_interposeAll (SpanTree.isTree_finished sharedTrace) (by decide) ⟨by decide, by decide⟩ (by decide)

end Linker

end ServiceMap
