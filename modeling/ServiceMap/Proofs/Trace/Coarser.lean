import ServiceMap.Proofs.Link.Calls
import ServiceMap.Proofs.Trace.Grouping

/-!
# Coarser groups

A list is the interleaving of its groups: each element goes to one group, and none overtakes another one of its group. Keys
that depend on other keys make coarser groups: each of them, grouped by the other keys again, falls apart into some of the
groups by those. Trace ids and their low halves are such keys. If no two trace ids have the same low half, then nothing is
joined, and the links are the same.
-/

namespace ServiceMap

/-- The list is put together from the parts: each time one of them gives its first element, until nothing is left. -/
inductive IsInterleaving {α : Type} : List (List α) → List α → Prop where
  | nil {parts : List (List α)} (h : ∀ part ∈ parts, part = []) : IsInterleaving parts []
  | cons {before after : List (List α)} {part : List α} {a : α} {l : List α}
      (h : IsInterleaving (before ++ part :: after) l) : IsInterleaving (before ++ (a :: part) :: after) (a :: l)

section Groups

variable {α κ κ' : Type} [DecidableEq κ] [DecidableEq κ'] (key : α → κ)

/-- Whatever different keys are taken, as long as all that occur are among them. -/
theorem isInterleaving_filter {keys : List κ} (hnodup : keys.Nodup) {l : List α} (hkeys : ∀ a ∈ l, key a ∈ keys) :
    IsInterleaving (keys.map fun k => l.filter (key · == k)) l := by
  induction l with
  | nil =>
    apply IsInterleaving.nil
    intro part hpart
    obtain ⟨k, _, rfl⟩ := List.mem_map.mp hpart
    rfl
  | cons a l ih =>
    rw [List.forall_mem_cons] at hkeys
    obtain ⟨before, after, rfl⟩ := List.append_of_mem hkeys.1
    have hother : ∀ k ∈ before ++ after, (a :: l).filter (key · == k) = l.filter (key · == k) := by
      intro k hk
      apply List.filter_cons_of_neg
      rw [beq_iff_eq]
      rintro rfl
      exact (List.nodup_cons.mp (List.nodup_middle.mp hnodup)).1 hk
    have hself : (a :: l).filter (key · == key a) = a :: l.filter (key · == key a) :=
      List.filter_cons_of_pos (beq_self_eq_true _)
    rw [List.forall_mem_append] at hother
    have hrest := ih hkeys.2
    rw [List.map_append, List.map_cons] at hrest ⊢
    rw [List.map_congr_left hother.1, List.map_congr_left hother.2, hself]
    exact hrest.cons

/-- The groups hold the elements of the list by their keys, in order: the keys stand where they first occur, a group holds
the elements with its key, and each element of the list is in one of the groups. -/
structure IsPartition (l : List α) (groups : Table κ (List α)) : Prop where
  keys_eq : groups.keys = (l.map key).eraseDups
  group_eq : ∀ entry ∈ groups.entries, entry.2 = l.filter (key · == entry.1)
  interleaving : IsInterleaving groups.values l

theorem isPartition_groupBy (l : List α) : IsPartition key l (groupBy key l) where
  keys_eq := by rw [keys_groupBy, withNew_nil_left]
  group_eq entry hentry := by
    rw [entries_groupBy] at hentry
    obtain ⟨k, _, rfl⟩ := List.mem_map.mp hentry
    rfl
  interleaving := by
    rw [values_groupBy]
    refine isInterleaving_filter key (nodup_withNew List.nodup_nil _) fun a ha => ?_
    exact mem_withNew.mpr (.inr (List.mem_map_of_mem ha))

/-! ### Keys of keys -/

variable (f : κ → κ')

theorem keys_groupBy_comp (l : List α) :
    (groupBy (f ∘ key) l).keys = ((groupBy key l).keys.map f).eraseDups := by
  rw [keys_groupBy, keys_groupBy, ← withNew_nil_left, withNew_map_withNew_nil, List.map_map]

/-- Each group is contained, in order, in the group that its key goes to. -/
theorem exists_sublist_groupBy_comp (l : List α) : ∀ entry ∈ (groupBy key l).entries,
    ∃ whole, (f entry.1, whole) ∈ (groupBy (f ∘ key) l).entries ∧ entry.2.Sublist whole := by
  intro entry hentry
  rw [entries_groupBy] at hentry
  obtain ⟨k, hk, rfl⟩ := List.mem_map.mp hentry
  have hmem : f k ∈ withNew [] (l.map (f ∘ key)) := by
    simp only [mem_withNew, List.not_mem_nil, false_or] at hk ⊢
    rw [← List.map_map]
    exact List.mem_map_of_mem hk
  refine ⟨l.filter ((f ∘ key) · == f k), entries_groupBy (f ∘ key) l ▸ List.mem_map_of_mem hmem, ?_⟩
  apply List.monotone_filter_right
  intro a ha
  simpa using congrArg f (beq_iff_eq.mp ha)

/-- A coarser group, grouped again, falls apart into the groups whose keys go to its key. -/
theorem entries_groupBy_filter (l : List α) (k' : κ') :
    (groupBy key (l.filter ((f ∘ key) · == k'))).entries = (groupBy key l).entries.filter (f ·.1 == k') := by
  rw [entries_groupBy, entries_groupBy, List.filter_map]
  have hkeys : (l.filter ((f ∘ key) · == k')).map key = (l.map key).filter (f · == k') := by
    rw [List.filter_map]
    rfl
  rw [hkeys, show withNew [] ((l.map key).filter (f · == k')) = (withNew [] (l.map key)).filter (f · == k') from
    withNew_filter (f · == k') [] (l.map key)]
  apply List.map_congr_left
  intro k hk
  have hk' : (f k == k') = true := (List.mem_filter.mp hk).2
  rw [List.filter_filter]
  congr 1
  apply List.filter_congr
  intro a _
  by_cases ha : key a = k
  · simp only [Function.comp_apply, ha, hk', Bool.and_true]
  · simp [ha]

theorem isInterleaving_groupBy_comp (l : List α) : ∀ entry ∈ (groupBy (f ∘ key) l).entries,
    IsInterleaving (((groupBy key l).entries.filter (f ·.1 == entry.1)).map (·.2)) entry.2 := by
  intro entry hentry
  rw [(isPartition_groupBy (f ∘ key) l).group_eq entry hentry, ← entries_groupBy_filter]
  exact (isPartition_groupBy key _).interleaving

variable {f}

/-- If no two keys go to the same one, the groups are the same. -/
theorem values_groupBy_comp {l : List α} (hf : ∀ a ∈ l, ∀ b ∈ l, f (key a) = f (key b) → key a = key b) :
    (groupBy (f ∘ key) l).values = (groupBy key l).values := by
  have hinj : ∀ j ∈ l.map key, ∀ k ∈ l.map key, f j = f k → j = k := by
    simpa only [List.forall_mem_map] using hf
  have hkeys : withNew [] (l.map (f ∘ key)) = (withNew [] (l.map key)).map f := by
    rw [← List.map_map]
    exact withNew_map [] (l.map key) hinj
  rw [values_groupBy, values_groupBy, hkeys, List.map_map]
  apply List.map_congr_left
  intro k hk
  apply List.filter_congr
  intro a ha
  have hk : k ∈ l.map key := (mem_withNew.mp hk).resolve_left List.not_mem_nil
  exact Bool.eq_iff_iff.mpr (by simpa using ⟨hinj _ (List.mem_map_of_mem ha) _ hk, congrArg f⟩)

end Groups

/-! ### Traces -/

/-- Only the traces matter to the links, not what they are known by. -/
theorem linkSpans_congr {strict strict' : Bool} {spans : List Span}
    (h : (groupByTrace strict spans).values = (groupByTrace strict' spans).values) :
    linkSpans strict spans = linkSpans strict' spans := by
  rw [linkSpans, linkSpans, h]

/-- Spans fall apart into traces, by whole trace ids and by their low halves. The traces by whole ids are contained in
those by low halves, which are interleavings of them, in the order in which their low halves first occur. If different ids
have different low halves, both come to the same traces in the same order, and to the same links. -/
theorem groupByTrace_coarsens (spans : List Span) :
    (∀ strict, IsPartition (Span.groupKey strict) spans (groupByTrace strict spans)) ∧
    (groupByTrace false spans).keys = ((groupByTrace true spans).keys.map Identifier.lowHalf).eraseDups ∧
    (∀ entry ∈ (groupByTrace true spans).entries, ∃ whole,
      (Identifier.lowHalf entry.1, whole) ∈ (groupByTrace false spans).entries ∧ entry.2.Sublist whole) ∧
    (∀ entry ∈ (groupByTrace false spans).entries, IsInterleaving
      (((groupByTrace true spans).entries.filter (Identifier.lowHalf ·.1 == entry.1)).map (·.2)) entry.2) ∧
    ((∀ s ∈ spans, ∀ t ∈ spans, Identifier.lowHalf s.traceId = Identifier.lowHalf t.traceId → s.traceId = t.traceId) →
      (groupByTrace true spans).values = (groupByTrace false spans).values ∧
      ∃ links notes, linkSpans true spans = .ok (links, notes) ∧ linkSpans false spans = .ok (links, notes)) := by
  refine ⟨fun strict => isPartition_groupBy _ spans, keys_groupBy_comp (Span.groupKey true) Identifier.lowHalf spans,
    exists_sublist_groupBy_comp (Span.groupKey true) Identifier.lowHalf spans,
    isInterleaving_groupBy_comp (Span.groupKey true) Identifier.lowHalf spans, fun hdifferent => ?_⟩
  have hvalues : (groupByTrace true spans).values = (groupByTrace false spans).values :=
    (values_groupBy_comp (Span.groupKey true) hdifferent).symm
  obtain ⟨notes, hlinks⟩ := linkSpans_eq true spans
  exact ⟨hvalues, _, notes, hlinks, linkSpans_congr hvalues ▸ hlinks⟩

/-- The shared trace once under each of these ids, one span of each in turn. -/
def tracesWithIds (ids : List String) : List Span :=
  sharedTrace.flatMap fun span => ids.map fun traceId => { span with traceId }

/-- Trace ids of both widths with different low halves. -/
def mixedWidths : List Span := tracesWithIds ["00000000000000010000000000000007", "0000000000000008"]

theorem groupByTrace_coarsens_mixedWidths :
    (∀ s ∈ mixedWidths, ∀ t ∈ mixedWidths,
      Identifier.lowHalf s.traceId = Identifier.lowHalf t.traceId → s.traceId = t.traceId) ∧
    (groupByTrace true mixedWidths).values = (groupByTrace false mixedWidths).values ∧
    ∃ links notes, linkSpans true mixedWidths = .ok (links, notes) ∧ linkSpans false mixedWidths = .ok (links, notes) := by
  have hdifferent : ∀ s ∈ mixedWidths, ∀ t ∈ mixedWidths,
      Identifier.lowHalf s.traceId = Identifier.lowHalf t.traceId → s.traceId = t.traceId := by
    decide +kernel
  exact ⟨hdifferent, (groupByTrace_coarsens mixedWidths).2.2.2.2 hdifferent⟩

/-- Spans that report the same trace under a long id and under its low half are brought together. -/
example : let spans := tracesWithIds ["00000000000000010000000000000007", "0000000000000008", "0000000000000007"]
    ((groupByTrace true spans).values.map List.length, (groupByTrace false spans).values.map List.length) =
      ([3, 3, 3], [6, 3]) := by
  decide +kernel

end ServiceMap
