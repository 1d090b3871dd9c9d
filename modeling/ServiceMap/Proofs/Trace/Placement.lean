import ServiceMap.Proofs.Trace.SpanTree
import ServiceMap.Proofs.Tree.Reordered
import ServiceMap.Proofs.Tree.Repeated

/-!
# Where spans stand

Every span of a trace has a key, and of the spans with one key the first is kept. If no kept span is above itself, the
tree of the trace holds just the kept spans, and each of them stands where it belongs, in whatever order they came. The
server half of a call stands below the client half. A span that names the id of a server half as its parent stands below
the server half, and a span that names another id below the span with this id. Where the client half or the parent is
missing, a span stands below the root, for which there is a placeholder if need be.
-/

namespace ServiceMap

open Relation (TransGen)

namespace SpanTree

/-! ### Kept spans -/

/-- The first span with the key of a span. -/
def firstWithKey? (spans : List Span) (span : Span) : Option Span := spans.find? (key spans · == key spans span)

/-- The span is the first with its key. -/
def IsKept (spans : List Span) (span : Span) : Prop := firstWithKey? spans span = some span

instance (spans : List Span) (span : Span) : Decidable (IsKept spans span) :=
  inferInstanceAs (Decidable (_ = _))

/-- A kept span with the first key names the second one as its parent. -/
def KeptNames (spans : List Span) (k p : SpanKey) : Prop :=
  ∃ s, IsKept spans s ∧ key spans s = k ∧ parentKey spans s = some p

/-- The span is the server half of a call: a server span with the id of a flagged server span or of a span that is no
server. -/
def IsHalf (spans : List Span) (span : Span) : Prop :=
  span.kind = .server ∧ ∃ other ∈ spans, other.id = span.id ∧ (other.kind = .server ∧ other.shared = true ∨ other.kind ≠ .server)

/-- The first span with an id that is no server. -/
def firstNonServer? (spans : List Span) (id : String) : Option Span :=
  spans.find? fun s => s.kind != .server && s.id == id

variable {spans : List Span} {s t : Span}

theorem IsKept.mem (h : IsKept spans s) : s ∈ spans := List.mem_of_find?_eq_some h

theorem exists_isKept (hs : s ∈ spans) :
    ∃ first, firstWithKey? spans s = some first ∧ IsKept spans first ∧ key spans first = key spans s := by
  obtain ⟨first, hfirst⟩ : ∃ first, firstWithKey? spans s = some first :=
    Option.isSome_iff_exists.mp (List.find?_isSome.mpr ⟨s, hs, beq_self_eq_true _⟩)
  have hkey : key spans first = key spans s := by simpa using List.find?_some hfirst
  refine ⟨first, hfirst, ?_, hkey⟩
  rwa [IsKept, firstWithKey?, hkey]

theorem isServerHalf_iff_isHalf (hs : s ∈ spans) : isServerHalf spans s = true ↔ IsHalf spans s := by
  rw [isServerHalf_iff, isSharedId_iff, IsHalf]
  refine and_congr_right fun hkind => ⟨?_, ?_⟩
  · rintro ⟨server, hserver, hserverKind, hid, hshared | ⟨other, hother, hotherKind, hotherId⟩⟩
    · exact ⟨server, hserver, hid, .inl ⟨hserverKind, hshared⟩⟩
    · exact ⟨other, hother, hotherId, .inr hotherKind⟩
  · rintro ⟨other, hother, hid, ⟨hotherKind, hshared⟩ | hotherKind⟩
    · exact ⟨other, hother, hotherKind, hid, .inl hshared⟩
    · exact ⟨s, hs, hkind, rfl, .inr ⟨other, hother, hotherKind, hid⟩⟩

/-- The spans with a shared id that are no server halves are those that are no servers. -/
theorem isServerHalf_eq_false_iff (hshared : isSharedId spans s.id = true) :
    isServerHalf spans s = false ↔ s.kind ≠ .server := by
  rw [← Bool.not_eq_true, isServerHalf_iff, and_iff_left hshared]

theorem isSharedId_of_isHalf (hs : s ∈ spans) (h : IsHalf spans s) : isSharedId spans s.id = true :=
  (isServerHalf_iff.mp ((isServerHalf_iff_isHalf hs).mpr h)).2

/-- An id is shared just if a kept server half has it. -/
theorem isSharedId_iff_exists_half {id : String} :
    isSharedId spans id = true ↔ ∃ half, IsKept spans half ∧ IsHalf spans half ∧ half.id = id := by
  constructor
  · intro hshared
    obtain ⟨server, hserver, hkind, rfl, _⟩ := isSharedId_iff.mp hshared
    obtain ⟨first, _, hkept, hkey⟩ := exists_isKept hserver
    have hhalf : isServerHalf spans first = true :=
      (congrArg SpanKey.serverHalf hkey).trans (isServerHalf_iff.mpr ⟨hkind, hshared⟩)
    exact ⟨first, hkept, (isServerHalf_iff_isHalf hkept.mem).mp hhalf, congrArg SpanKey.id hkey⟩
  · rintro ⟨half, hkept, hhalf, rfl⟩
    exact isSharedId_of_isHalf hkept.mem hhalf

/-! ### The tree of the kept spans -/

/-- The entry of a span. -/
def entry (spans : List Span) (span : Span) : Entry SpanKey Span :=
  { parent := parentKey spans span, id := some (key spans span), value := some span }

theorem mem_firsts_entries {e : Entry SpanKey Span} :
    e ∈ Entry.firsts (entries spans) ↔ ∃ s, IsKept spans s ∧ entry spans s = e := by
  have hentries : entries spans = spans.map (entry spans) := rfl
  rw [Entry.mem_firsts_iff, hentries, List.find?_map, Option.map_eq_some_iff]
  refine exists_congr fun s => and_congr_left ?_
  rintro rfl
  rw [IsKept, firstWithKey?]
  simp [entry, Function.comp_def]

theorem mem_ids_firsts_entries {k : SpanKey} :
    some k ∈ (Entry.firsts (entries spans)).map (·.id) ↔ ∃ s ∈ spans, key spans s = k := by
  rw [List.mem_map]
  constructor
  · rintro ⟨e, he, hid⟩
    obtain ⟨s, hs, rfl⟩ := mem_firsts_entries.mp he
    exact ⟨s, hs.mem, Option.some.inj hid⟩
  · rintro ⟨s, hs, rfl⟩
    obtain ⟨first, _, hkept, hkey⟩ := exists_isKept hs
    exact ⟨entry spans first, mem_firsts_entries.mpr ⟨first, hkept, rfl⟩, congrArg some hkey⟩

theorem consistent_firsts (hacyclic : ∀ k, ¬TransGen (KeptNames spans) k k) :
    Entry.Consistent (Entry.firsts (entries spans)) where
  ids_nodup := Entry.nodup_ids_firsts _
  id_isSome e he := by
    obtain ⟨s, _, rfl⟩ := mem_firsts_entries.mp he
    rfl
  value_isSome e he := by
    obtain ⟨s, _, rfl⟩ := mem_firsts_entries.mp he
    rfl
  acyclic k hcycle := by
    refine hacyclic k (TransGen.mono (fun a p hnames => ?_) k k hcycle)
    obtain ⟨e, he, hid, hparent⟩ := hnames
    obtain ⟨s, hs, rfl⟩ := mem_firsts_entries.mp he
    exact ⟨s, hs, Option.some.inj hid, hparent⟩

/-- The node of one span is just below that of another one, and stands there once. -/
def IsBelow (t : SpanTree) (parent child : Slot SpanKey) : Prop :=
  t.graph.parent? child = some parent ∧ (t.graph.children parent).count child = 1

theorem isBelow_finished {parent child : Slot SpanKey} (h : (finished spans).graph.parent? child = some parent) :
    IsBelow (finished spans) parent child :=
  ⟨h, List.count_eq_one_of_mem ((isTree_finished spans).children_nodup parent) ((isTree_finished spans).mem_children_iff.mpr h)⟩

section Kept

variable (hacyclic : ∀ k, ¬TransGen (KeptNames spans) k k)
include hacyclic

theorem builder_eq_filled_firsts :
    builder spans = .filledUnder none ((spans.head?.map (·.traceId)).getD "") (Entry.firsts (entries spans)) :=
  ((consistent_firsts hacyclic).filled_firsts _).symm

theorem mem_keys_builder_iff {id : Option SpanKey} :
    id ∈ (builder spans).declared.keys ↔ ∃ s ∈ spans, id = some (key spans s) := by
  rw [builder_eq_filled_firsts hacyclic, (consistent_firsts hacyclic).fits.keys_filled]
  constructor
  · intro hid
    obtain ⟨e, he, rfl⟩ := List.mem_map.mp hid
    obtain ⟨s, hs, rfl⟩ := mem_firsts_entries.mp he
    exact ⟨s, hs.mem, rfl⟩
  · rintro ⟨s, hs, rfl⟩
    exact mem_ids_firsts_entries.mpr ⟨s, hs, rfl⟩

theorem mem_nodes_finished {slot : Slot SpanKey} : slot ∈ (finished spans).nodes ↔
    (∃ s ∈ spans, slot = slotOf spans s) ∨ (slot = .placeholder ∧ (finished spans).root = .placeholder) := by
  have hroot : (builder spans).rootId ∉ (builder spans).declared.keys ↔ (finished spans).root = .placeholder := by
    rw [finished, TreeBuilder.finished, TreeBuilder.rootSlot_eq]
    split <;> simp_all
  rw [finished, (linked_builder spans).mem_nodes_finished, ← finished, hroot]
  simp only [mem_keys_builder_iff hacyclic]
  refine or_congr_left ⟨?_, ?_⟩
  · rintro ⟨_, ⟨s, hs, rfl⟩, rfl⟩
    exact ⟨s, hs, rfl⟩
  · rintro ⟨s, hs, rfl⟩
    exact ⟨_, ⟨s, hs, rfl⟩, rfl⟩

theorem value?_slotOf (hs : s ∈ spans) :
    (finished spans).graph.value? (slotOf spans s) = firstWithKey? spans s := by
  obtain ⟨first, hfirst, hkept, hkey⟩ := exists_isKept hs
  have hentry : entry spans first ∈ Entry.firsts (entries spans) := mem_firsts_entries.mpr ⟨first, hkept, rfl⟩
  rw [hfirst, slotOf, ← hkey, finished, TreeBuilder.Linked.value?_finished, builder_eq_filled_firsts hacyclic]
  exact (consistent_firsts hacyclic).fits.value?_filled _ hentry

/-- A kept span other than the root stands below the span whose key it names, if there is one, else below the root. -/
theorem parent?_slotOf (hs : IsKept spans s) : (finished spans).graph.parent? (slotOf spans s) =
    if slotOf spans s = (finished spans).root then none
    else some (if ∃ t ∈ spans, parentKey spans s = some (key spans t) then .id (parentKey spans s)
      else (finished spans).root) := by
  have hentry : entry spans s ∈ Entry.firsts (entries spans) := mem_firsts_entries.mpr ⟨s, hs, rfl⟩
  have hparent := (consistent_firsts hacyclic).fits.parent?_finished ((spans.head?.map (·.traceId)).getD "") hentry
  have hmem : (entry spans s).parent ∈ (Entry.firsts (entries spans)).map (·.id) ↔
      ∃ t ∈ spans, parentKey spans s = some (key spans t) := by
    rw [← (consistent_firsts hacyclic).fits.keys_filled ((spans.head?.map (·.traceId)).getD ""),
      ← builder_eq_filled_firsts hacyclic, mem_keys_builder_iff hacyclic]
    rfl
  rw [← builder_eq_filled_firsts hacyclic] at hparent
  simp only [hmem] at hparent
  exact hparent

/-- A kept span that is the root names no parent. -/
theorem parentKey_of_root (hs : IsKept spans s) (hroot : slotOf spans s = (finished spans).root) :
    parentKey spans s = none := by
  have hentry : entry spans s ∈ Entry.firsts (entries spans) := mem_firsts_entries.mpr ⟨s, hs, rfl⟩
  have hdeclared := (consistent_firsts hacyclic).declaredParent_filled ((spans.head?.map (·.traceId)).getD "") hentry
  rw [← builder_eq_filled_firsts hacyclic] at hdeclared
  have hid : some (key spans s) = (builder spans).rootId := by
    rw [finished, TreeBuilder.finished, TreeBuilder.rootSlot_eq] at hroot
    split at hroot
    · exact Slot.id.inj hroot
    · simp [slotOf] at hroot
  have htop := (linked_builder spans).declaredParent_root
  rw [← hid] at htop
  exact hdeclared.symm.trans htop

theorem isBelow_of_parentKey (hs : IsKept spans s) (ht : t ∈ spans) (hnames : parentKey spans s = some (key spans t)) :
    IsBelow (finished spans) (slotOf spans t) (slotOf spans s) := by
  have hroot : slotOf spans s ≠ (finished spans).root := by
    intro heq
    rw [parentKey_of_root hacyclic hs heq] at hnames
    simp at hnames
  apply isBelow_finished
  rw [parent?_slotOf hacyclic hs, if_neg hroot, if_pos ⟨t, ht, hnames⟩, hnames, slotOf]

theorem isBelow_root (hs : IsKept spans s) (hroot : slotOf spans s ≠ (finished spans).root)
    (hstray : ∀ t ∈ spans, parentKey spans s ≠ some (key spans t)) :
    IsBelow (finished spans) (finished spans).root (slotOf spans s) := by
  apply isBelow_finished
  rw [parent?_slotOf hacyclic hs, if_neg hroot, if_neg]
  rintro ⟨t, ht, hnames⟩
  exact hstray t ht hnames

end Kept

/-! ### Where the kept spans stand -/

/-- Each node of the tree is the node of a key, with the first span that has the key, or a placeholder for the root. Kept
spans stand below the other half of the call, below the server half that has the id they name, below another span that has
this id, or below the root. -/
structure IsPlaced (t : SpanTree) (spans : List Span) : Prop where
  nodes_nodup : t.nodes.Nodup
  mem_nodes : ∀ slot, slot ∈ t.nodes ↔
    (∃ s ∈ spans, slot = slotOf spans s) ∨ (slot = .placeholder ∧ t.root = .placeholder)
  value?_slotOf : ∀ s ∈ spans, t.graph.value? (slotOf spans s) = firstWithKey? spans s
  value?_placeholder : t.graph.value? .placeholder = none
  half_below_client : ∀ s c, IsKept spans s → IsHalf spans s → firstNonServer? spans s.id = some c →
    IsKept spans c ∧ IsBelow t (slotOf spans c) (slotOf spans s)
  below_half : ∀ s half, IsKept spans s → ¬IsHalf spans s → IsKept spans half → IsHalf spans half →
    namedParent? s = some half.id → IsBelow t (slotOf spans half) (slotOf spans s)
  below_other : ∀ s p, IsKept spans s → ¬IsHalf spans s → IsKept spans p → namedParent? s = some p.id →
    (∀ half, IsKept spans half → IsHalf spans half → half.id ≠ p.id) → IsBelow t (slotOf spans p) (slotOf spans s)
  half_below_root : ∀ s, IsKept spans s → IsHalf spans s → firstNonServer? spans s.id = none →
    slotOf spans s ≠ t.root → IsBelow t t.root (slotOf spans s)
  below_root : ∀ s, IsKept spans s → ¬IsHalf spans s → (∀ p, IsKept spans p → namedParent? s ≠ some p.id) →
    slotOf spans s ≠ t.root → IsBelow t t.root (slotOf spans s)

theorem parentKey_of_isHalf (hs : s ∈ spans) (h : IsHalf spans s) : parentKey spans s = some ⟨s.id, false⟩ := by
  rw [parentKey, if_pos ((isServerHalf_iff_isHalf hs).mpr h)]

theorem parentKey_of_not_isHalf (hs : s ∈ spans) (h : ¬IsHalf spans s) :
    parentKey spans s = (namedParent? s).map fun id => ⟨id, isSharedId spans id⟩ := by
  rw [parentKey, if_neg fun hhalf => h ((isServerHalf_iff_isHalf hs).mp hhalf)]

/-- Of the spans with a shared id, those that are no servers have the key of the client half. -/
theorem key_eq_clientKey_iff (hshared : isSharedId spans s.id = true) :
    key spans t = ⟨s.id, false⟩ ↔ t.id = s.id ∧ t.kind ≠ .server := by
  rw [key, SpanKey.mk.injEq]
  refine and_congr_right fun hid => ?_
  rw [isServerHalf_eq_false_iff (hid ▸ hshared)]

/-- The client half is kept. -/
theorem isKept_of_firstNonServer? {c : Span} (hshared : isSharedId spans s.id = true)
    (hc : firstNonServer? spans s.id = some c) : key spans c = ⟨s.id, false⟩ ∧ IsKept spans c := by
  have hfound := List.find?_some hc
  rw [Bool.and_eq_true, bne_iff_ne, beq_iff_eq] at hfound
  have hkey : key spans c = ⟨s.id, false⟩ := (key_eq_clientKey_iff hshared).mpr ⟨hfound.2, hfound.1⟩
  have hsame : (fun t => key spans t == key spans c) = fun t => t.kind != .server && t.id == s.id := by
    funext t
    rw [hkey, Bool.eq_iff_iff, beq_iff_eq, key_eq_clientKey_iff hshared, Bool.and_eq_true, bne_iff_ne, beq_iff_eq,
      and_comm]
  exact ⟨hkey, by rwa [IsKept, firstWithKey?, hsame]⟩

theorem key_of_not_shared (h : isSharedId spans s.id = false) : key spans s = ⟨s.id, false⟩ := by
  rw [key, isServerHalf, h, Bool.and_false]

theorem key_of_isHalf (hs : s ∈ spans) (h : IsHalf spans s) : key spans s = ⟨s.id, true⟩ := by
  rw [key, (isServerHalf_iff_isHalf hs).mpr h]

theorem isPlaced_finished (hacyclic : ∀ k, ¬TransGen (KeptNames spans) k k) : IsPlaced (finished spans) spans where
  nodes_nodup := (isTree_finished spans).breadthFirst_perm.nodup_iff.mpr (isTree_finished spans).keys_nodup
  mem_nodes _ := mem_nodes_finished hacyclic
  value?_slotOf _ := value?_slotOf hacyclic
  value?_placeholder := (linked_builder spans).value?_finished_placeholder
  half_below_client s c hs hhalf hc := by
    obtain ⟨hkey, hkept⟩ := isKept_of_firstNonServer? (isSharedId_of_isHalf hs.mem hhalf) hc
    refine ⟨hkept, isBelow_of_parentKey hacyclic hs hkept.mem ?_⟩
    rw [parentKey_of_isHalf hs.mem hhalf, hkey]
  below_half s half hs hplain hkept hhalf hnames := by
    refine isBelow_of_parentKey hacyclic hs hkept.mem ?_
    rw [parentKey_of_not_isHalf hs.mem hplain, hnames, Option.map_some, isSharedId_of_isHalf hkept.mem hhalf,
      key_of_isHalf hkept.mem hhalf]
  below_other s p hs hplain hkept hnames hunshared := by
    have hshared : isSharedId spans p.id = false := by
      rw [← Bool.not_eq_true, isSharedId_iff_exists_half]
      rintro ⟨half, hkept', hhalf, hid⟩
      exact hunshared half hkept' hhalf hid
    refine isBelow_of_parentKey hacyclic hs hkept.mem ?_
    rw [parentKey_of_not_isHalf hs.mem hplain, hnames, Option.map_some, hshared, key_of_not_shared hshared]
  half_below_root s hs hhalf hnone hroot := by
    refine isBelow_root hacyclic hs hroot fun t ht hnames => ?_
    rw [parentKey_of_isHalf hs.mem hhalf, Option.some.injEq, eq_comm,
      key_eq_clientKey_iff (isSharedId_of_isHalf hs.mem hhalf)] at hnames
    simpa [hnames] using List.find?_eq_none.mp hnone t ht
  below_root s hs hplain hstray hroot := by
    refine isBelow_root hacyclic hs hroot fun t ht hnames => ?_
    rw [parentKey_of_not_isHalf hs.mem hplain, Option.map_eq_some_iff] at hnames
    obtain ⟨id, hid, hkey⟩ := hnames
    obtain ⟨first, _, hkept, hfirst⟩ := exists_isKept ht
    refine hstray first hkept (hid.trans (congrArg some ?_))
    exact (congrArg SpanKey.id hkey).trans (congrArg SpanKey.id hfirst).symm

/-- A trace in which no kept span is above itself has a tree in which all spans stand where they belong, in whatever
order they come. What spans name that are not kept does not matter. -/
theorem ofSpans_isPlaced (hspans : spans ≠ []) (hacyclic : ∀ k, ¬TransGen (KeptNames spans) k k) :
    ∃ tree notes, ofSpans spans = .ok (tree, notes) ∧ tree.IsPlaced spans := by
  obtain ⟨notes, htree⟩ := ofSpans_eq hspans
  exact ⟨finished spans, notes, htree, isPlaced_finished hacyclic⟩

/-- A trace in which `c` comes before the server half `b` that it names, which comes before the client half, which comes
before the root `a`. Another span `c` names itself. The client half of `d` is missing, and so is what `f` names. -/
def scatteredTrace : List Span := [
  { traceId := "7", id := "c", parentId := some "b", kind := .client },
  { traceId := "7", id := "c", parentId := some "c", kind := .client },
  { traceId := "7", id := "b", parentId := some "a", kind := .server },
  { traceId := "7", id := "b", parentId := some "a", kind := .client },
  { traceId := "7", id := "a", kind := .server },
  { traceId := "7", id := "e", parentId := some "d" },
  { traceId := "7", id := "d", parentId := some "c", kind := .server, shared := true },
  { traceId := "7", id := "f", parentId := some "x" }]

/-- How far down a key of that trace stands. -/
def scatteredRank (key : SpanKey) : Nat :=
  if key.id = "c" ∨ key.id = "e" then 4
  else if key.id = "b" ∨ key.id = "d" then if key.serverHalf then 3 else 2
  else if key.id = "f" then 2
  else if key.id = "a" then 1
  else 0

theorem ofSpans_isPlaced_scatteredTrace :
    scatteredTrace ≠ [] ∧ (∀ k, ¬TransGen (KeptNames scatteredTrace) k k) ∧
      ∃ tree notes, ofSpans scatteredTrace = .ok (tree, notes) ∧ tree.IsPlaced scatteredTrace := by
  have hspans : scatteredTrace ≠ [] := by decide
  have hrank : ∀ s ∈ scatteredTrace, IsKept scatteredTrace s →
      ∀ p ∈ parentKey scatteredTrace s, scatteredRank p < scatteredRank (key scatteredTrace s) := by decide +kernel
  have hacyclic : ∀ k, ¬TransGen (KeptNames scatteredTrace) k k := by
    refine not_transGen_self_of_rank scatteredRank fun k p hnames => ?_
    obtain ⟨s, hs, rfl, hp⟩ := hnames
    exact hrank s hs.mem hs p hp
  exact ⟨hspans, hacyclic, ofSpans_isPlaced hspans hacyclic⟩

end SpanTree

end ServiceMap
