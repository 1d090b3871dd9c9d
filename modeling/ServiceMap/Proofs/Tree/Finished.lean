import ServiceMap.Proofs.Tree.Levels
import ServiceMap.Proofs.Tree.Offered

/-!
# Finished trees

What a builder finishes is a tree: nodes that are not linked yet go below the root, in order, and then every node climbs
to the root and stands among the children of one node, once. This holds whatever was offered to the builder before, so
a walk from the root of a finished tree visits each accepted entry once, and a placeholder just if the root never came.
-/

namespace ServiceMap

namespace Graph

variable {ι α : Type} [DecidableEq ι] {g : Graph ι α}

/-- Linking nodes without a parent keeps children and parents in agreement. -/
theorem mem_children_linkAll_iff (hiff : ∀ p c, c ∈ g.children p ↔ g.parent? c = some p) {root : ι} {cs : List ι}
    (hfree : ∀ c ∈ cs, g.parent? c = none) (p c : ι) :
    c ∈ (g.linkAll root cs).children p ↔ (g.linkAll root cs).parent? c = some p := by
  rw [children_linkAll, parent?_linkAll]
  by_cases hc : c ∈ cs
  · have hout : ∀ p, c ∉ g.children p := by
      intro p hp
      rw [hiff, hfree c hc] at hp
      simp at hp
    by_cases hp : p = root
    · simp [hp, hc]
    · simp [hp, Ne.symm hp, hc, hout]
  · by_cases hp : p = root
    · simp [hp, hc, hiff]
    · simp [hp, hc, hiff]

end Graph

namespace TreeBuilder

variable {κ α : Type} [DecidableEq κ]

def rootSlot (b : TreeBuilder κ α) : Slot κ := if b.declared.contains b.rootId then .id b.rootId else .placeholder

/-- The nodes that go below the root when the tree is finished. -/
def orphanSlots (b : TreeBuilder κ α) : List (Slot κ) := (b.orphans b.rootSlot).map .id

/-- The nodes with the one that stands for a missing root. -/
def rootedGraph (b : TreeBuilder κ α) : Graph (Slot κ) α :=
  if b.declared.contains b.rootId then b.graph else b.graph.add .placeholder none

def finished (b : TreeBuilder κ α) : Tree κ α := ⟨b.rootedGraph.linkAll b.rootSlot b.orphanSlots, b.rootSlot⟩

theorem rootSlot_eq (b : TreeBuilder κ α) :
    b.rootSlot = if b.rootId ∈ b.declared.keys then .id b.rootId else .placeholder := by
  simp only [rootSlot, Table.contains_iff_mem_keys]

theorem rootedGraph_eq (b : TreeBuilder κ α) :
    b.rootedGraph = if b.rootId ∈ b.declared.keys then b.graph else b.graph.add .placeholder none := by
  simp only [rootedGraph, Table.contains_iff_mem_keys]

theorem build_eq {b : TreeBuilder κ α} (hbuilt : b.built = false) :
    ∃ completion, b.build = .ok completion ∧ completion.tree = b.finished := by
  have hheadless : (!b.declared.contains b.rootId) = true ↔ b.rootId ∉ b.declared.keys := by
    rw [Bool.not_eq_true', ← Bool.not_eq_true, Table.contains_iff_mem_keys]
  simp only [build, hbuilt, Bool.false_eq_true, if_false, Except.ok.injEq, exists_eq_left']
  simp only [hheadless, ite_not, finished, rootSlot_eq, rootedGraph_eq, orphanSlots, Graph.linkAll, List.foldl_map]

namespace Linked

variable {b : TreeBuilder κ α} (h : b.Linked)
include h

theorem placeholder_not_mem : Slot.placeholder ∉ b.graph.nodes.keys := by
  simp [h.node_keys]

theorem children_placeholder : b.graph.children .placeholder = [] :=
  Graph.children_of_not_mem h.placeholder_not_mem

theorem parent?_placeholder : b.graph.parent? .placeholder = none :=
  Graph.parent?_of_not_mem h.placeholder_not_mem

omit h in
theorem value?_rootedGraph (id : Option κ) : b.rootedGraph.value? (.id id) = b.graph.value? (.id id) := by
  rw [rootedGraph_eq]
  split
  · rfl
  · rw [Graph.value?_add, if_neg (by simp)]

theorem value?_finished_placeholder : b.finished.graph.value? .placeholder = none := by
  rw [finished, Graph.value?_linkAll, rootedGraph_eq]
  split
  · exact Graph.value?_of_not_mem h.placeholder_not_mem
  · rw [Graph.value?_add, if_pos rfl]

theorem parent?_rootedGraph (slot : Slot κ) : b.rootedGraph.parent? slot = b.graph.parent? slot := by
  rw [rootedGraph_eq]
  split
  · rfl
  · exact Graph.parent?_add_of_not_mem h.placeholder_not_mem _ _

theorem children_rootedGraph (slot : Slot κ) : b.rootedGraph.children slot = b.graph.children slot := by
  rw [rootedGraph_eq]
  split
  · rfl
  · exact Graph.children_add_of_not_mem h.placeholder_not_mem _ _

theorem keys_rootedGraph : b.rootedGraph.nodes.keys =
    b.declared.keys.map .id ++ if b.rootId ∈ b.declared.keys then [] else [.placeholder] := by
  rw [rootedGraph_eq]
  split
  · rw [h.node_keys, List.append_nil]
  · rw [Graph.keys_add_of_not_mem h.placeholder_not_mem, h.node_keys]

theorem mem_orphanSlots_iff {slot : Slot κ} : slot ∈ b.orphanSlots ↔
    ∃ id ∈ b.declared.keys, slot = .id id ∧ slot ≠ b.rootSlot ∧ b.linkedParent id = none := by
  simp only [orphanSlots, orphans, List.mem_map, List.mem_filter, h.parent?_id, Bool.and_eq_true, bne_iff_ne,
    Option.isNone_iff_eq_none]
  constructor
  · rintro ⟨id, ⟨hid, hroot, hparent⟩, rfl⟩
    exact ⟨id, hid, rfl, hroot, hparent⟩
  · rintro ⟨id, hid, rfl, hroot, hparent⟩
    exact ⟨id, ⟨hid, hroot, hparent⟩, rfl⟩

theorem rootSlot_mem : b.rootSlot ∈ b.rootedGraph.nodes.keys := by
  rw [h.keys_rootedGraph, rootSlot_eq]
  split
  · simpa
  · simp

theorem keys_finished : b.finished.graph.nodes.keys =
    b.declared.keys.map .id ++ if b.rootId ∈ b.declared.keys then [] else [.placeholder] := by
  rw [← h.keys_rootedGraph]
  apply Graph.keys_linkAll h.rootSlot_mem
  intro c hc
  obtain ⟨id, hid, rfl, _⟩ := h.mem_orphanSlots_iff.mp hc
  rw [h.keys_rootedGraph]
  exact List.mem_append_left _ (List.mem_map_of_mem hid)

/-- A node of the finished tree is that of an id or the placeholder, and that is the root. -/
theorem mem_keys_finished {slot : Slot κ} (hslot : slot ∈ b.finished.graph.nodes.keys) :
    (∃ id ∈ b.declared.keys, slot = .id id) ∨ (slot = .placeholder ∧ b.rootSlot = .placeholder) := by
  rw [h.keys_finished, List.mem_append] at hslot
  rcases hslot with hslot | hslot
  · obtain ⟨id, hid, rfl⟩ := List.mem_map.mp hslot
    exact .inl ⟨id, hid, rfl⟩
  · split at hslot
    · exact absurd hslot List.not_mem_nil
    · rename_i hroot
      exact .inr ⟨List.mem_singleton.mp hslot, by rw [rootSlot_eq, if_neg hroot]⟩

omit h in
theorem value?_finished (id : Option κ) : b.finished.graph.value? (.id id) = b.graph.value? (.id id) :=
  (Graph.value?_linkAll _ _ _ _).trans (value?_rootedGraph id)

/-- In the finished tree, a node is below its declared parent, if that came, else below the root. -/
theorem parent?_finished {id : Option κ} (hid : id ∈ b.declared.keys) : b.finished.graph.parent? (.id id) =
    if .id id = b.rootSlot then none else some ((b.linkedParent id).getD b.rootSlot) := by
  have hparent : b.rootedGraph.parent? (.id id) = b.linkedParent id := by rw [h.parent?_rootedGraph, h.parent?_id]
  rw [finished, Graph.parent?_linkAll, hparent]
  simp only [h.mem_orphanSlots_iff, Slot.id.injEq]
  by_cases hroot : Slot.id id = b.rootSlot
  · have htop : b.linkedParent id = none := by
      rw [rootSlot_eq] at hroot
      split at hroot
      · rw [Slot.id.inj hroot, linkedParent, h.declaredParent_root, parentNode]
      · simp at hroot
    simp [hroot, htop]
  · cases hlinked : b.linkedParent id with
    | none =>
      rw [if_pos ⟨id, hid, rfl, hroot, hlinked⟩, if_neg hroot, Option.getD_none]
    | some slot =>
      have hnot : ¬∃ j ∈ b.declared.keys, id = j ∧ Slot.id id ≠ b.rootSlot ∧ b.linkedParent j = none := by
        rintro ⟨_, _, rfl, _, hnone⟩
        simp [hlinked] at hnone
      rw [if_neg hnot, if_neg hroot, Option.getD_some]

theorem parent?_finished_root : b.finished.graph.parent? b.rootSlot = none := by
  have hplain : b.rootSlot ∉ b.orphanSlots := by
    intro hmem
    obtain ⟨_, _, _, hroot, _⟩ := h.mem_orphanSlots_iff.mp hmem
    exact hroot rfl
  rw [finished, Graph.parent?_linkAll, if_neg hplain, h.parent?_rootedGraph, rootSlot_eq]
  split
  · rw [h.parent?_id, linkedParent, h.declaredParent_root, parentNode]
  · exact h.parent?_placeholder

theorem children_finished (slot : Slot κ) : b.finished.graph.children slot =
    b.graph.children slot ++ if slot = b.rootSlot then b.orphanSlots else [] := by
  rw [finished, Graph.children_linkAll, h.children_rootedGraph, h.children_rootedGraph]
  by_cases hroot : slot = b.rootSlot
  · rw [if_pos hroot, if_pos hroot, hroot]
  · rw [if_neg hroot, if_neg hroot, List.append_nil]

theorem children_of_not_declared {id : Option κ} (hid : id ∉ b.declared.keys) : b.graph.children (.id id) = [] :=
  Graph.children_of_not_mem (by simpa [h.node_keys] using hid)

theorem value?_of_not_declared {id : Option κ} (hid : id ∉ b.declared.keys) : b.graph.value? (.id id) = none :=
  Graph.value?_of_not_mem (by simpa [h.node_keys] using hid)

/-- While a tree is built, a node is linked below the parent that it declares, if that is there. -/
theorem parent?_eq_some_iff {c p : Slot κ} : b.graph.parent? c = some p ↔
    ∃ j k, c = .id j ∧ p = .id (some k) ∧ some k ∈ b.declared.keys ∧ b.declaredParent j = some k := by
  cases c with
  | placeholder => simp [h.parent?_placeholder]
  | id j =>
    rw [h.parent?_id, linkedParent, parentNode_eq_some_iff]
    constructor
    · rintro ⟨k, hk, hmem, rfl⟩
      exact ⟨j, k, rfl, rfl, hmem, hk⟩
    · rintro ⟨_, k, hj, rfl, hmem, hk⟩
      obtain rfl := Slot.id.inj hj
      exact ⟨k, hk, hmem, rfl⟩

/-- While a tree is built, the children of a node are those that declare it as their parent. -/
theorem mem_children_iff_exists {c p : Slot κ} : c ∈ b.graph.children p ↔
    ∃ j k, c = .id j ∧ p = .id (some k) ∧ some k ∈ b.declared.keys ∧ b.declaredParent j = some k := by
  cases p with
  | placeholder => simp [h.children_placeholder]
  | id i =>
    by_cases hi : i ∈ b.declared.keys
    · rw [h.children_id i hi, List.mem_map]
      cases i with
      | none => simp [declaredChildren]
      | some k =>
        simp only [mem_declaredChildren h.keys_nodup]
        constructor
        · rintro ⟨j, hj, rfl⟩
          exact ⟨j, k, rfl, rfl, hi, hj⟩
        · rintro ⟨j, k', rfl, hk, _, hj⟩
          obtain rfl : k = k' := Option.some.inj (Slot.id.inj hk)
          exact ⟨j, hj, rfl⟩
    · rw [h.children_of_not_declared hi, iff_false_intro List.not_mem_nil, false_iff]
      rintro ⟨_, k, _, hk, hmem, _⟩
      exact hi (Slot.id.inj hk ▸ hmem)

/-- While a tree is built, children and parents agree. -/
theorem mem_children_iff (p c : Slot κ) : c ∈ b.graph.children p ↔ b.graph.parent? c = some p :=
  h.mem_children_iff_exists.trans h.parent?_eq_some_iff.symm

theorem children_nodup (slot : Slot κ) : (b.graph.children slot).Nodup := by
  cases slot with
  | placeholder =>
    rw [h.children_placeholder]
    exact List.nodup_nil
  | id i =>
    by_cases hi : i ∈ b.declared.keys
    · rw [h.children_id i hi]
      refine List.Nodup.map (fun _ _ => Slot.id.inj) ?_
      cases i with
      | none => exact List.nodup_nil
      | some k => exact h.keys_nodup.sublist (List.filter_sublist.map _)
    · rw [h.children_of_not_declared hi]
      exact List.nodup_nil

theorem orphanSlots_nodup : b.orphanSlots.Nodup :=
  (h.keys_nodup.filter _).map fun _ _ => Slot.id.inj

theorem parent?_of_mem_orphanSlots {slot : Slot κ} (hslot : slot ∈ b.orphanSlots) : b.graph.parent? slot = none := by
  obtain ⟨id, _, rfl, _, hparent⟩ := h.mem_orphanSlots_iff.mp hslot
  rw [h.parent?_id, hparent]

/-- From every node of the finished tree a climb gets to the root. The induction is on declared parents, which form no
cycle; null declares a parent but is none. -/
theorem exists_climb_finished {id : Option κ} (hid : id ∈ b.declared.keys) :
    ∃ steps, climb b.finished.graph.parent? steps (.id id) = some b.rootSlot := by
  have hstep : ∀ id ∈ b.declared.keys,
      (∀ p, b.declaredParent id = some p → some p ∈ b.declared.keys →
        ∃ steps, climb b.finished.graph.parent? steps (.id (some p)) = some b.rootSlot) →
      ∃ steps, climb b.finished.graph.parent? steps (.id id) = some b.rootSlot := by
    intro id hid hup
    by_cases hroot : Slot.id id = b.rootSlot
    · exact ⟨0, congrArg some hroot⟩
    · have hparent := h.parent?_finished hid
      rw [if_neg hroot] at hparent
      cases hlinked : b.linkedParent id with
      | none =>
        rw [hlinked, Option.getD_none] at hparent
        exact ⟨1, by rw [climb_one, hparent]⟩
      | some slot =>
        obtain ⟨p, hp, hpmem, rfl⟩ := parentNode_eq_some_iff.mp hlinked
        obtain ⟨steps, hsteps⟩ := hup p hp hpmem
        rw [hlinked, Option.getD_some] at hparent
        exact ⟨steps + 1, (climb_succ_of_up hparent steps).trans hsteps⟩
  have hall : ∀ k, some k ∈ b.declared.keys →
      ∃ steps, climb b.finished.graph.parent? steps (.id (some k)) = some b.rootSlot := by
    refine h.acyclic.induction_on (fun _ _ => mem_ids_of_above) fun k ih hk => ?_
    exact hstep (some k) hk fun p hp hpmem => ih p hp hpmem
  exact hstep id hid fun p _ hpmem => hall p hpmem

theorem isTree_finished : b.finished.graph.IsTree b.rootSlot where
  keys_nodup := by
    rw [h.keys_finished]
    refine List.nodup_append.mpr ⟨h.keys_nodup.map fun _ _ => Slot.id.inj, ?_, ?_⟩
    · split <;> simp
    · intro slot hslot slot' hslot' heq
      obtain ⟨id, _, rfl⟩ := List.mem_map.mp hslot
      subst heq
      split at hslot' <;> simp at hslot'
  root_mem := by
    rw [h.keys_finished, ← h.keys_rootedGraph]
    exact h.rootSlot_mem
  parent?_root := h.parent?_finished_root
  mem_children_iff {p c} := by
    refine Graph.mem_children_linkAll_iff (fun p c => ?_) (fun c hc => ?_) p c
    · rw [h.children_rootedGraph, h.parent?_rootedGraph]
      exact h.mem_children_iff p c
    · rw [h.parent?_rootedGraph]
      exact h.parent?_of_mem_orphanSlots hc
  children_nodup slot := by
    rw [h.children_finished]
    refine List.nodup_append.mpr ⟨h.children_nodup slot, ?_, ?_⟩
    · split
      · exact h.orphanSlots_nodup
      · exact List.nodup_nil
    · intro c hc c' hc' heq
      subst heq
      split at hc'
      · rw [h.mem_children_iff, h.parent?_of_mem_orphanSlots hc'] at hc
        simp at hc
      · exact absurd hc' List.not_mem_nil
  exists_climb slot hslot := by
    rw [h.keys_finished, List.mem_append] at hslot
    rcases hslot with hslot | hslot
    · obtain ⟨id, hid, rfl⟩ := List.mem_map.mp hslot
      exact h.exists_climb_finished hid
    · refine ⟨0, ?_⟩
      rw [climb_zero, rootSlot_eq]
      split at hslot
      · exact absurd hslot List.not_mem_nil
      · rename_i hroot
        rw [List.mem_singleton.mp hslot, if_neg hroot]

end Linked

end TreeBuilder

/-! ### The walk from the root -/

namespace Tree

variable {κ α : Type} [DecidableEq κ]

/-- The tree holds the given entries and nothing else. The walk from the root ends and visits the node of each entry
once, with the value of the entry, and besides them a placeholder for the root just if no entry has the root id. The root
has no parent; each other node stands once among the children of its parent and among those of no other node. -/
structure Holds (t : Tree κ α) (rootId : Option κ) (entries : List (Entry κ α)) : Prop where
  ids_nodup : (entries.map (·.id)).Nodup
  walk_ends : ∀ more, (Walk.start t.root).take t.graph (t.nodes.length + more) = t.nodes
  nodes_nodup : t.nodes.Nodup
  mem_nodes : ∀ slot, slot ∈ t.nodes ↔
    (∃ entry ∈ entries, slot = .id entry.id) ∨ (slot = .placeholder ∧ rootId ∉ entries.map (·.id))
  value?_id : ∀ entry ∈ entries, entry.value.isSome ∧ t.graph.value? (.id entry.id) = entry.value
  value?_placeholder : t.graph.value? .placeholder = none
  root_eq : t.root = if rootId ∈ entries.map (·.id) then .id rootId else .placeholder
  parent?_root : t.graph.parent? t.root = none
  below : ∀ c ∈ t.nodes, c ≠ t.root → ∃ p ∈ t.nodes, t.graph.parent? c = some p ∧
    (t.graph.children p).count c = 1 ∧ ∀ q ∈ t.nodes, q ≠ p → c ∉ t.graph.children q

end Tree

namespace Graph.IsTree

variable {ι α : Type} [DecidableEq ι] {g : Graph ι α} {root : ι} (h : g.IsTree root)
include h

theorem length_breadthFirst : (g.breadthFirst root).length = g.size := by
  rw [h.breadthFirst_perm.length_eq, g.length_keys]

theorem walk_ends (more : Nat) :
    (Walk.start root).take g ((g.breadthFirst root).length + more) = g.breadthFirst root := by
  rw [h.length_breadthFirst, h.take_start_eq_levels, h.breadthFirst_eq_levels]

/-- Each node but the root is a child of one node, once. -/
theorem below {c : ι} (hc : c ∈ g.breadthFirst root) (hroot : c ≠ root) :
    ∃ p ∈ g.breadthFirst root, g.parent? c = some p ∧ (g.children p).count c = 1 ∧
      ∀ q ∈ g.breadthFirst root, q ≠ p → c ∉ g.children q := by
  rw [h.breadthFirst_perm.mem_iff] at hc
  obtain ⟨steps, hclimb⟩ := h.exists_climb c hc
  obtain ⟨rest, rfl⟩ : ∃ rest, steps = rest + 1 := by
    apply Nat.exists_eq_succ_of_ne_zero
    rintro rfl
    exact hroot (Option.some.inj hclimb)
  obtain ⟨p, hp, _⟩ := Option.bind_eq_some_iff.mp hclimb
  have hchild : c ∈ g.children p := h.mem_children_iff.mpr hp
  refine ⟨p, h.breadthFirst_perm.mem_iff.mpr (mem_keys_of_mem_children hchild), hp, ?_, ?_⟩
  · exact List.count_eq_one_of_mem (h.children_nodup p) hchild
  · intro q _ hne hq
    rw [h.mem_children_iff, hp] at hq
    exact hne (Option.some.inj hq).symm

end Graph.IsTree

namespace TreeBuilder

variable {κ α : Type} [DecidableEq κ]

theorem nodes_finished (b : TreeBuilder κ α) : b.finished.nodes = b.finished.graph.breadthFirst b.rootSlot := rfl

theorem Linked.mem_nodes_finished {b : TreeBuilder κ α} (h : b.Linked) (slot : Slot κ) :
    slot ∈ b.finished.nodes ↔
      (∃ id ∈ b.declared.keys, slot = .id id) ∨ (slot = .placeholder ∧ b.rootId ∉ b.declared.keys) := by
  rw [nodes_finished, h.isTree_finished.breadthFirst_perm.mem_iff, h.keys_finished, List.mem_append, List.mem_map]
  refine or_congr (exists_congr fun id => and_congr_right fun _ => eq_comm) ?_
  split
  · simp_all
  · simp_all

/-- No node is lost, duplicated or left in a loop, whatever is offered to a builder. -/
theorem build_offerAll_holds (traceId : String) (rootId : Option κ) (entries : List (Entry κ α)) :
    ∃ b : TreeBuilder κ α, start (some traceId) rootId = .ok b ∧
      ∃ completion, (b.offerAll entries).build = .ok completion ∧
        completion.tree.Holds (rootIdOf rootId (b.accepted entries)) (b.accepted entries) := by
  refine ⟨⟨traceId, rootId, {}, .empty, .empty, false⟩, rfl, ?_⟩
  generalize hb : (⟨traceId, rootId, {}, .empty, .empty, false⟩ : TreeBuilder κ α) = b
  have hlinked : (b.offerAll entries).Linked := hb ▸ (Linked.start traceId rootId).offerAll entries
  have hkeys : (b.offerAll entries).declared.keys = (b.accepted entries).map (·.id) := by
    rw [keys_offerAll, ← hb]
    rfl
  have hroot : (b.offerAll entries).rootId = rootIdOf rootId (b.accepted entries) := by
    rw [rootId_offerAll, ← hb]
  obtain ⟨completion, hbuild, htree⟩ := build_eq (b := b.offerAll entries) (by rw [built_offerAll, ← hb])
  have hshape := hlinked.isTree_finished
  refine ⟨completion, hbuild, htree ▸ ?_⟩
  exact {
    ids_nodup := hkeys ▸ hlinked.keys_nodup
    walk_ends := hshape.walk_ends
    nodes_nodup := hshape.breadthFirst_perm.nodup_iff.mpr hshape.keys_nodup
    mem_nodes := fun slot => by
      rw [hlinked.mem_nodes_finished, hkeys, hroot]
      simp
    value?_id := fun entry hentry => by
      rw [Linked.value?_finished, value?_offerAll entries hentry]
      exact ⟨isSome_of_mem_accepted hentry, rfl⟩
    value?_placeholder := hlinked.value?_finished_placeholder
    root_eq := by rw [finished, rootSlot_eq, hkeys, hroot]
    parent?_root := hshape.parent?_root
    below := fun c hc hne => hshape.below hc hne }

end TreeBuilder

end ServiceMap
