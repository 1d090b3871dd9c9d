import ServiceMap.Proofs.Tree.Consistent
import ServiceMap.Trace.SpanTree

/-!
# Trees of all traces

Every trace with spans has a tree: the spans are offered to a builder without a designated root, and what the builder
finishes is a tree in the sense of `Graph.IsTree`, whatever the spans say. If the keys of the spans are distinct and no
key is above itself, the entries are consistent, so that every span has its node.
-/

namespace ServiceMap

open Relation (TransGen)

namespace SpanTree

/-- The builder to which the spans of a trace were offered. -/
def builder (spans : List Span) : TreeBuilder SpanKey Span :=
  .filledUnder none ((spans.head?.map (·.traceId)).getD "") (entries spans)

/-- The tree of a trace as its builder finishes it. -/
def finished (spans : List Span) : SpanTree := (builder spans).finished

theorem linked_builder (spans : List Span) : (builder spans).Linked := TreeBuilder.linked_filledUnder none _ _

theorem value_isSome_of_mem_entries {spans : List Span} {e : Entry SpanKey Span} (he : e ∈ entries spans) :
    e.value.isSome := by
  obtain ⟨span, _, rfl⟩ := List.mem_map.mp he
  rfl

theorem ofSpans_eq {spans : List Span} (h : spans ≠ []) : ∃ notes, ofSpans spans = .ok (finished spans, notes) := by
  obtain ⟨first, rest, rfl⟩ := List.exists_cons_of_ne_nil h
  have hvalue : ∀ e ∈ entries (first :: rest), e.value.isSome := fun e he => value_isSome_of_mem_entries he
  obtain ⟨notes, hadd⟩ := TreeBuilder.addAll_eq_offerAll
    (b := (⟨first.traceId, none, {}, .empty, .empty, false⟩ : TreeBuilder SpanKey Span)) rfl hvalue
  obtain ⟨completion, hbuild, htree⟩ := TreeBuilder.build_eq
    (TreeBuilder.built_filledUnder none first.traceId (entries (first :: rest)))
  refine ⟨notes ++ completion.notes, ?_⟩
  simp only [TreeBuilder.filledUnder] at hbuild htree
  simp only [ofSpans, finished, builder, TreeBuilder.filledUnder, ofEntries, Tree.ofEntries, TreeBuilder.start, bind,
    Except.bind, hadd, hbuild, htree, pure, Except.pure]
  rfl

theorem isTree_finished (spans : List Span) : (finished spans).graph.IsTree (finished spans).root :=
  (linked_builder spans).isTree_finished

/-! ### Server halves -/

theorem isSharedId_iff {spans : List Span} {id : String} : isSharedId spans id = true ↔
    ∃ s ∈ spans, s.kind = .server ∧ s.id = id ∧ (s.shared = true ∨ ∃ c ∈ spans, c.kind ≠ .server ∧ c.id = id) := by
  simp only [isSharedId, Bool.or_eq_true, Bool.and_eq_true, List.any_eq_true, List.mem_filter, beq_iff_eq,
    Bool.not_eq_true', List.isEmpty_eq_false_iff_exists_mem, bne_iff_ne]
  constructor
  · rintro (⟨s, ⟨hs, hkind, hid⟩, hshared⟩ | ⟨⟨s, hs, hkind, hid⟩, c, hc⟩)
    · exact ⟨s, hs, hkind, hid, .inl hshared⟩
    · exact ⟨s, hs, hkind, hid, .inr ⟨c, hc⟩⟩
  · rintro ⟨s, hs, hkind, hid, hshared | ⟨c, hc⟩⟩
    · exact .inl ⟨s, ⟨hs, hkind, hid⟩, hshared⟩
    · exact .inr ⟨⟨s, hs, hkind, hid⟩, c, hc⟩

theorem isServerHalf_iff {spans : List Span} {span : Span} :
    isServerHalf spans span = true ↔ span.kind = .server ∧ isSharedId spans span.id = true := by
  simp [isServerHalf]

theorem namedParent?_eq_some_iff {span : Span} {id : String} :
    namedParent? span = some id ↔ span.parentId = some id ∧ id ≠ "" := by
  simp [namedParent?, Option.filter_eq_some_iff]

/-! ### Consistent traces -/

/-- A span with the first key names the second one as its parent. -/
def Names (spans : List Span) (k p : SpanKey) : Prop :=
  ∃ s ∈ spans, key spans s = k ∧ parentKey spans s = some p

/-- The keys of the spans are distinct, and no key is above itself. -/
structure Consistent (spans : List Span) : Prop where
  keys_nodup : (spans.map (key spans)).Nodup
  acyclic : ∀ k, ¬TransGen (Names spans) k k

theorem Consistent.entries {spans : List Span} (h : Consistent spans) :
    Entry.Consistent (SpanTree.entries spans) where
  ids_nodup := by
    have hids : (SpanTree.entries spans).map (·.id) = (spans.map (key spans)).map some := by
      simp [SpanTree.entries]
    rw [hids]
    exact h.keys_nodup.map fun _ _ => Option.some.inj
  id_isSome e he := by
    obtain ⟨span, _, rfl⟩ := List.mem_map.mp he
    rfl
  value_isSome _ he := value_isSome_of_mem_entries he
  acyclic k hcycle := by
    refine h.acyclic k (TransGen.mono (fun a p hnames => ?_) k k hcycle)
    obtain ⟨e, he, hid, hparent⟩ := hnames
    obtain ⟨span, hspan, rfl⟩ := List.mem_map.mp he
    exact ⟨span, hspan, Option.some.inj hid, hparent⟩

/-- The node of a span. -/
def slotOf (spans : List Span) (span : Span) : Slot SpanKey := .id (some (key spans span))

namespace Consistent

variable {spans : List Span} (h : Consistent spans)
include h

/-- A node with a span is the node of that span. -/
theorem mem_of_value?_finished {slot : Slot SpanKey} {span : Span}
    (hvalue : (finished spans).graph.value? slot = some span) : span ∈ spans ∧ slot = slotOf spans span := by
  have hslot : slot ∈ (finished spans).graph.nodes.keys := by
    by_contra hout
    simp [Graph.value?_of_not_mem hout] at hvalue
  rcases (linked_builder spans).mem_keys_finished hslot with ⟨id, hid, rfl⟩ | ⟨rfl, _⟩
  · rw [builder, h.entries.fits.keys_filled] at hid
    obtain ⟨e, he, rfl⟩ := List.mem_map.mp hid
    obtain ⟨s, hs, rfl⟩ := List.mem_map.mp he
    have hown := (TreeBuilder.Linked.value?_finished _).symm.trans hvalue
    rw [builder, h.entries.fits.value?_filled _ he] at hown
    obtain rfl := Option.some.inj hown
    exact ⟨hs, rfl⟩
  · have hnone := (linked_builder spans).value?_finished_placeholder
    rw [← finished, hvalue] at hnone
    simp at hnone

variable {span : Span} (hspan : span ∈ spans)
include hspan

theorem mem_keys_builder : some (key spans span) ∈ (builder spans).declared.keys := by
  rw [builder, h.entries.fits.keys_filled]
  exact List.mem_map.mpr ⟨_, List.mem_map_of_mem hspan, rfl⟩

theorem declaredParent_builder : (builder spans).declaredParent (some (key spans span)) = parentKey spans span := by
  have hentry : (⟨parentKey spans span, some (key spans span), some span⟩ : Entry SpanKey Span) ∈
      SpanTree.entries spans := List.mem_map_of_mem hspan
  exact h.entries.declaredParent_filled _ hentry

theorem value?_finished : (finished spans).graph.value? (slotOf spans span) = some span := by
  have hentry : (⟨parentKey spans span, some (key spans span), some span⟩ : Entry SpanKey Span) ∈
      SpanTree.entries spans := List.mem_map_of_mem hspan
  exact (TreeBuilder.Linked.value?_finished _).trans (h.entries.fits.value?_filled _ hentry)

/-- A span stands below the span whose key it names. -/
theorem parent?_finished {parent : Span} (hparent : parent ∈ spans)
    (hnames : parentKey spans span = some (key spans parent)) :
    (finished spans).graph.parent? (slotOf spans span) = some (slotOf spans parent) := by
  have hdeclared := h.declaredParent_builder hspan
  rw [hnames] at hdeclared
  have hroot : Slot.id (some (key spans span)) ≠ (builder spans).rootSlot := by
    intro heq
    rw [TreeBuilder.rootSlot_eq] at heq
    split at heq
    · have htop := (linked_builder spans).declaredParent_root
      rw [← Slot.id.inj heq, hdeclared] at htop
      simp at htop
    · simp at heq
  refine ((linked_builder spans).parent?_finished (h.mem_keys_builder hspan)).trans ?_
  rw [if_neg hroot, TreeBuilder.linkedParent, hdeclared, TreeBuilder.parentNode, if_pos (h.mem_keys_builder hparent),
    Option.getD_some, slotOf]

end Consistent

/-- Where parents have a lower rank, no key is above itself. -/
theorem acyclic_of_rank {spans : List Span} (rank : SpanKey → Nat)
    (h : ∀ s ∈ spans, ∀ p ∈ parentKey spans s, rank p < rank (key spans s)) (k : SpanKey) :
    ¬TransGen (Names spans) k k := by
  refine not_transGen_self_of_rank rank (fun k p hnames => ?_) k
  obtain ⟨s, hs, rfl, hp⟩ := hnames
  exact h s hs p hp

end SpanTree

/-! ### A trace with a shared id -/

/-- A call from `web` to `api` whose two halves share an id, and a call from there to `db`. -/
def sharedTrace : List Span := [
  { traceId := "7", id := "a", kind := .client, localEndpoint := some { serviceName := "web" } },
  { traceId := "7", id := "a", kind := .server, localEndpoint := some { serviceName := "api" } },
  { traceId := "7", id := "b", parentId := some "a", kind := .client, localEndpoint := some { serviceName := "api" },
    remoteEndpoint := some { serviceName := "db" } }]

/-- How far down a key of that trace stands. -/
def sharedTraceRank (key : SpanKey) : Nat := if key.id = "b" then 2 else if key.serverHalf then 1 else 0

end ServiceMap
