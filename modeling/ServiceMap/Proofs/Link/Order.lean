import ServiceMap.Proofs.Link.Calls
import ServiceMap.Proofs.Tree.Reordered

/-!
# Links and the order of spans

What a node shows depends on its span, on whether something is below it and on its ancestors, and none of that depends
on the order in which siblings stand. So the spans of a trace show the same calls in every order in which they may
arrive, as long as their keys are distinct, no key is above itself and it is clear which span is the root. Where parents
or client halves are missing this makes no difference.
-/

namespace ServiceMap

/-! ### Alike trees -/

namespace Graph.Alike

variable {ι : Type} [DecidableEq ι] {g g' : Graph ι Span} (h : g.Alike g')
include h

theorem remoteAncestor? (i : ι) : g.remoteAncestor? i = g'.remoteAncestor? i := by
  have hfind : ∀ a, (g.node a).value.filter (·.kind != .unset) = (g'.node a).value.filter (·.kind != .unset) :=
    fun a => congrArg _ (h.value? a)
  simp only [Graph.remoteAncestor?, Graph.findAncestor?_eq, h.ancestors, hfind]

variable {root : ι} (hg : g.IsTree root) (hg' : g'.IsTree root)
include hg hg'

theorem finding (i : ι) : g.finding root i = g'.finding root i := by
  simp only [Graph.finding, h.value?, h.remoteAncestor?, h.isEmpty_children hg hg']

theorem calls_perm : (g.calls root).Perm (g'.calls root) := by
  have hfindings : (g.findings root).Perm (g'.findings root) := by
    rw [Graph.findings, Graph.findings, funext (h.finding hg hg')]
    exact (h.breadthFirst_perm hg hg').map _
  exact hfindings.flatMap_right _

end Graph.Alike

/-! ### Traces in another order -/

namespace SpanTree

variable {spans spans' : List Span} (hperm : spans.Perm spans')
include hperm

theorem isSharedId_perm : isSharedId spans = isSharedId spans' := by
  funext id
  rw [Bool.eq_iff_iff, isSharedId_iff, isSharedId_iff]
  simp only [hperm.mem_iff]

theorem key_perm : key spans = key spans' := by
  funext span
  simp only [key, isServerHalf, isSharedId_perm hperm]

theorem parentKey_perm : parentKey spans = parentKey spans' := by
  funext span
  rw [parentKey, parentKey, isServerHalf, isServerHalf, isSharedId_perm hperm]

theorem entries_perm : (entries spans).Perm (entries spans') := by
  rw [entries, entries, key_perm hperm, parentKey_perm hperm]
  exact hperm.map _

end SpanTree

/-- The spans that may be the root: no server halves, and without a parent. -/
def rootSpans (spans : List Span) : List Span :=
  spans.filter fun s => !(SpanTree.key spans s).serverHalf && (SpanTree.namedParent? s).isNone

theorem length_filter_entries (spans : List Span) :
    ((SpanTree.entries spans).filter (·.parent.isNone)).length = (rootSpans spans).length := by
  rw [SpanTree.entries, List.filter_map, List.length_map, rootSpans]
  congr 1
  apply List.filter_congr
  intro s _
  rw [Function.comp_apply]
  cases hhalf : SpanTree.isServerHalf spans s <;> simp [SpanTree.parentKey, SpanTree.key, hhalf]

/-- A consistent trace with one possible root at most shows the same calls in every order. -/
theorem traceCalls_perm {spans spans' : List Span} (h : SpanTree.Consistent spans) (hroots : (rootSpans spans).length ≤ 1)
    (hperm : spans.Perm spans') : (traceCalls spans).Perm (traceCalls spans') := by
  have hagrees := h.entries.fits.filled_agrees (SpanTree.entries_perm hperm) (.inr (by rwa [length_filter_entries]))
    ((spans.head?.map (·.traceId)).getD "") ((spans'.head?.map (·.traceId)).getD "")
  have hroot : (SpanTree.finished spans).root = (SpanTree.finished spans').root := hagrees.rootSlot
  have halike : (SpanTree.finished spans).graph.Alike (SpanTree.finished spans').graph :=
    hagrees.finished (SpanTree.linked_builder spans) (SpanTree.linked_builder spans')
  rw [traceCalls, traceCalls, ← hroot]
  exact halike.calls_perm (SpanTree.isTree_finished spans) (hroot ▸ SpanTree.isTree_finished spans')

theorem linksOfCalls_perm {calls calls' : List Call} (h : calls.Perm calls') :
    (linksOfCalls calls).Perm (linksOfCalls calls') :=
  linksOfShares_perm (h.map _)

theorem nodup_pairs_linksOfCalls (calls : List Call) : ((linksOfCalls calls).map Link.pair).Nodup :=
  nodup_pairs_linksOfShares _

/-- The links of a trace do not depend on the order in which its spans arrive: in every order they are the same calls and
errors for the same pairs, of which none has two links. -/
theorem traceLinks_perm {spans spans' : List Span} (hkeys : (spans.map (SpanTree.key spans)).Nodup)
    (hacyclic : ∀ k, ¬Relation.TransGen (SpanTree.Names spans) k k) (hroots : (rootSpans spans).length ≤ 1)
    (hperm : spans.Perm spans') : ∃ links links', traceLinks spans = .ok links ∧ traceLinks spans' = .ok links' ∧
      links.Perm links' ∧ (links.map Link.pair).Nodup ∧ (links'.map Link.pair).Nodup :=
  ⟨linksOfCalls (traceCalls spans), linksOfCalls (traceCalls spans'), traceLinks_eq spans, traceLinks_eq spans',
    linksOfCalls_perm (traceCalls_perm ⟨hkeys, hacyclic⟩ hroots hperm), nodup_pairs_linksOfCalls _,
    nodup_pairs_linksOfCalls _⟩

theorem traceLinks_perm_sharedTrace : ∃ links links',
    traceLinks sharedTrace = .ok links ∧ traceLinks sharedTrace.reverse = .ok links' ∧ links.Perm links' ∧
      (links.map Link.pair).Nodup ∧ (links'.map Link.pair).Nodup :=
  traceLinks_perm (by decide) (SpanTree.acyclic_of_rank sharedTraceRank (by decide)) (by decide)
    sharedTrace.reverse_perm.symm

end ServiceMap
