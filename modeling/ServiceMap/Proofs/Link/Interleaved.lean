import ServiceMap.Proofs.Link.Buckets
import ServiceMap.Proofs.Link.Order

/-!
# Interleaved traces

The spans of several traces may come in any mixture. As long as the spans of each trace keep their order, the groups are
the same, each is linked on its own, and what the linker counts is a sum of what the groups show. So every mixture has
the same links, and so has the merge of the links of the groups, one by one and in any order.
-/

namespace ServiceMap

/-- The lists hold the same spans of each trace in the same order, however the traces are mixed. -/
def SameTraces (strict : Bool) (spans others : List Span) : Prop :=
  ∀ traceId, spans.filter (·.groupKey strict == traceId) = others.filter (·.groupKey strict == traceId)

/-- Only the traces matter of which there are spans. -/
theorem sameTraces_iff {strict : Bool} {spans others : List Span} : SameTraces strict spans others ↔
    ∀ s ∈ spans ++ others, spans.filter (·.groupKey strict == s.groupKey strict) =
      others.filter (·.groupKey strict == s.groupKey strict) := by
  constructor
  · exact fun h s _ => h (s.groupKey strict)
  · intro h traceId
    by_cases htrace : ∃ s ∈ spans ++ others, s.groupKey strict = traceId
    · obtain ⟨s, hs, rfl⟩ := htrace
      exact h s hs
    · have hnone : ∀ s ∈ spans ++ others, s.groupKey strict ≠ traceId := fun s hs heq => htrace ⟨s, hs, heq⟩
      obtain ⟨hspans, hothers⟩ := List.forall_mem_append.mp hnone
      rw [filter_key_eq_nil hspans, filter_key_eq_nil hothers]

instance (strict : Bool) (spans others : List Span) : Decidable (SameTraces strict spans others) :=
  decidable_of_iff _ sameTraces_iff.symm

theorem callsOf_perm {strict : Bool} {spans others : List Span} (h : SameTraces strict spans others) :
    (callsOf strict spans).Perm (callsOf strict others) :=
  (values_groupBy_perm h).flatMap_right _

/-- The links of some traces, each linked on its own, are merged into those of all their calls. -/
theorem merge_traceLinks (traces : List (List Span)) : ∃ collections, traces.mapM traceLinks = .ok collections ∧
    Tally.merge collections = .ok (linksOfCalls (traces.flatMap traceCalls)) := by
  refine ⟨(traces.map traceCalls).map linksOfCalls, ?_, ?_⟩
  · rw [List.map_map]
    apply mapM_eq_ok
    intro spans _
    rw [traceLinks_eq, Function.comp_apply]
  · have hnamed : ∀ calls ∈ traces.map traceCalls, ∀ call ∈ calls, call.pair.IsNamed := by
      intro calls hcalls call hcall
      obtain ⟨spans, _, rfl⟩ := List.mem_map.mp hcalls
      exact isNamed_of_mem_traceCalls hcall
    exact Tally.merge_linksOfCalls hnamed

/-- Traces do not influence each other, however their spans are mixed: the links are the same calls and errors for the
same pairs, of which none has two links, and so are the merged links of the traces, taken one by one in any order. -/
theorem linkSpans_sameTraces {strict : Bool} {spans others : List Span} (h : SameTraces strict spans others) :
    ∃ links notes links' notes', linkSpans strict spans = .ok (links, notes) ∧
      linkSpans strict others = .ok (links', notes') ∧ links.Perm links' ∧
      (links.map Link.pair).Nodup ∧ (links'.map Link.pair).Nodup ∧
      ∀ traces : List (List Span), traces.Perm (groupByTrace strict spans).values →
        ∃ collections merged, traces.mapM traceLinks = .ok collections ∧ Tally.merge collections = .ok merged ∧
          merged.Perm links ∧ (merged.map Link.pair).Nodup := by
  obtain ⟨notes, hlinks⟩ := linkSpans_eq strict spans
  obtain ⟨notes', hlinks'⟩ := linkSpans_eq strict others
  refine ⟨_, notes, _, notes', hlinks, hlinks', linksOfCalls_perm (callsOf_perm h), nodup_pairs_linksOfCalls _,
    nodup_pairs_linksOfCalls _, fun traces htraces => ?_⟩
  obtain ⟨collections, hcollections, hmerge⟩ := merge_traceLinks traces
  have hcalls : (traces.flatMap traceCalls).Perm (callsOf strict spans) := htraces.flatMap_right _
  exact ⟨collections, _, hcollections, hmerge, linksOfCalls_perm hcalls, nodup_pairs_linksOfCalls _⟩

/-- The spans of two traces in turn. In the second trace the server half comes first. -/
def mixedTraces : List Span :=
  let other := (sharedTrace.map fun span => { span with traceId := "8" }).reverse
  (sharedTrace.zip other).flatMap fun (span, span') => [span, span']

/-- The same spans, one trace after the other. -/
def sortedTraces : List Span := mixedTraces.filter (·.traceId == "8") ++ mixedTraces.filter (·.traceId == "7")

theorem linkSpans_sameTraces_mixedTraces : SameTraces false mixedTraces sortedTraces ∧
    ∃ links notes links' notes', linkSpans false mixedTraces = .ok (links, notes) ∧
      linkSpans false sortedTraces = .ok (links', notes') ∧ links.Perm links' ∧
      (links.map Link.pair).Nodup ∧ (links'.map Link.pair).Nodup ∧
      ∀ traces : List (List Span), traces.Perm (groupByTrace false mixedTraces).values →
        ∃ collections merged, traces.mapM traceLinks = .ok collections ∧ Tally.merge collections = .ok merged ∧
          merged.Perm links ∧ (merged.map Link.pair).Nodup := by
  have hmixed : SameTraces false mixedTraces sortedTraces := by decide +kernel
  exact ⟨hmixed, linkSpans_sameTraces hmixed⟩

end ServiceMap
