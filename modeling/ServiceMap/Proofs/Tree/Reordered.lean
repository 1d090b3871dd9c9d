import ServiceMap.Proofs.Tree.Consistent

/-!
# Entries in another order

Entries that fit a builder make the same tree in whatever order they come, up to the order of the nodes and of the
children of each node, if it is clear which of them is the root: it is designated, or at most one entry has no parent.
Builders that have come to the same by different ways agree on what is declared, and then the finished graphs have the
same nodes with the same parents and values.
-/

namespace ServiceMap

open Relation (TransGen)

namespace Graph

variable {ι α : Type} [DecidableEq ι]

/-- The graphs have the same nodes with the same parents and values. -/
structure Alike (g g' : Graph ι α) : Prop where
  keys : g.nodes.keys.Perm g'.nodes.keys
  parent? : ∀ i, g.parent? i = g'.parent? i
  value? : ∀ i, g.value? i = g'.value? i

namespace Alike

variable {g g' : Graph ι α} (h : g.Alike g')
include h

theorem size : g.size = g'.size := by
  rw [← g.length_keys, h.keys.length_eq, g'.length_keys]

theorem ancestorsUpTo (steps : Nat) (i : ι) : g.ancestorsUpTo steps i = g'.ancestorsUpTo steps i := by
  induction steps generalizing i with
  | zero => rfl
  | succ steps ih =>
    rw [Graph.ancestorsUpTo, Graph.ancestorsUpTo, h.parent?]
    split
    · rw [ih]
    · rfl

theorem ancestors (i : ι) : g.ancestors i = g'.ancestors i := by
  rw [Graph.ancestors, Graph.ancestors, h.size, h.ancestorsUpTo]

theorem breadthFirst_perm {root : ι} (hg : g.IsTree root) (hg' : g'.IsTree root) :
    (g.breadthFirst root).Perm (g'.breadthFirst root) :=
  hg.breadthFirst_perm.trans (h.keys.trans hg'.breadthFirst_perm.symm)

/-- In trees, which nodes stand below which is known from their parents. -/
theorem isEmpty_children {root : ι} (hg : g.IsTree root) (hg' : g'.IsTree root) (i : ι) :
    (g.children i).isEmpty = (g'.children i).isEmpty := by
  have hmem : ∀ c, c ∈ g.children i ↔ c ∈ g'.children i := by
    intro c
    rw [hg.mem_children_iff, hg'.mem_children_iff, h.parent?]
  rw [Bool.eq_iff_iff, List.isEmpty_iff, List.isEmpty_iff, List.eq_nil_iff_forall_not_mem,
    List.eq_nil_iff_forall_not_mem]
  exact forall_congr' fun c => not_congr (hmem c)

end Alike

end Graph

namespace TreeBuilder

variable {κ α : Type} [DecidableEq κ]

/-- The builders agree on what is declared, on the root and on the values of the nodes. -/
structure Agrees (b b' : TreeBuilder κ α) : Prop where
  keys : b.declared.keys.Perm b'.declared.keys
  declaredParent : ∀ id, b.declaredParent id = b'.declaredParent id
  rootId : b.rootId = b'.rootId
  value? : ∀ id, b.graph.value? (.id id) = b'.graph.value? (.id id)

theorem Linked.parent?_finished_placeholder {b : TreeBuilder κ α} (h : b.Linked) :
    b.finished.graph.parent? .placeholder = none := by
  by_cases hroot : b.rootId ∈ b.declared.keys
  · have hout : Slot.placeholder ∉ b.finished.graph.nodes.keys := by simp [h.keys_finished, hroot]
    exact Graph.parent?_of_not_mem hout
  · have hslot : b.rootSlot = .placeholder := by rw [rootSlot_eq, if_neg hroot]
    exact hslot ▸ h.parent?_finished_root

theorem Linked.parent?_finished_of_not_mem {b : TreeBuilder κ α} (h : b.Linked) {id : Option κ}
    (hid : id ∉ b.declared.keys) : b.finished.graph.parent? (.id id) = none := by
  have hout : Slot.id id ∉ b.finished.graph.nodes.keys := by
    rw [h.keys_finished]
    split
    · simpa using hid
    · simpa using hid
  exact Graph.parent?_of_not_mem hout

namespace Agrees

variable {b b' : TreeBuilder κ α} (h : b.Agrees b')
include h

theorem rootSlot : b.rootSlot = b'.rootSlot := by
  simp only [TreeBuilder.rootSlot_eq, h.rootId, h.keys.mem_iff]

theorem linkedParent (id : Option κ) : b.linkedParent id = b'.linkedParent id := by
  rw [TreeBuilder.linkedParent, TreeBuilder.linkedParent, h.declaredParent]
  cases b'.declaredParent id with
  | none => rfl
  | some p => simp only [parentNode, h.keys.mem_iff]

theorem finished (hb : b.Linked) (hb' : b'.Linked) : b.finished.graph.Alike b'.finished.graph where
  keys := by
    rw [hb.keys_finished, hb'.keys_finished, h.rootId]
    simp only [h.keys.mem_iff]
    exact (h.keys.map _).append_right _
  parent? slot := by
    cases slot with
    | placeholder => rw [hb.parent?_finished_placeholder, hb'.parent?_finished_placeholder]
    | id id =>
      by_cases hid : id ∈ b.declared.keys
      · rw [hb.parent?_finished hid, hb'.parent?_finished (h.keys.mem_iff.mp hid), h.rootSlot, h.linkedParent]
      · rw [hb.parent?_finished_of_not_mem hid,
          hb'.parent?_finished_of_not_mem fun hmem => hid (h.keys.mem_iff.mpr hmem)]
  value? slot := by
    cases slot with
    | placeholder => rw [hb.value?_finished_placeholder, hb'.value?_finished_placeholder]
    | id id => rw [Linked.value?_finished, Linked.value?_finished, h.value?]

end Agrees

omit [DecidableEq κ] in
/-- If at most one entry has no parent, the first one without is the same in every order. -/
theorem rootIdOf_perm {entries entries' : List (Entry κ α)} (h : entries.Perm entries')
    (hroots : (entries.filter (·.parent.isNone)).length ≤ 1) :
    rootIdOf (none : Option κ) entries = rootIdOf none entries' := by
  have hids : ∀ l : List (Entry κ α), rootIdOf none l = ((l.filter (·.parent.isNone)).filterMap (·.id)).head? := by
    intro l
    rw [rootIdOf, Option.none_or, List.filterMap_filter, List.head?_filterMap]
  have hperm := h.filter (·.parent.isNone)
  rw [hids, hids]
  cases hroot : entries.filter (·.parent.isNone) with
  | nil => rw [hroot, List.nil_perm] at hperm; rw [hperm]
  | cons e rest =>
    rw [hroot, List.length_cons] at hroots
    obtain rfl : rest = [] := List.eq_nil_of_length_eq_zero (by omega)
    rw [hroot, List.singleton_perm] at hperm
    rw [hperm]

end TreeBuilder

namespace Entry.Fits

open TreeBuilder

variable {κ α : Type} {designated : Option κ} {entries entries' : List (Entry κ α)} (h : Fits designated entries)
include h

theorem perm (hperm : entries.Perm entries') : Fits designated entries' where
  ids_nodup := (hperm.map _).nodup_iff.mp h.ids_nodup
  id_isSome e he := h.id_isSome e (hperm.mem_iff.mpr he)
  value_isSome e he := h.value_isSome e (hperm.mem_iff.mpr he)
  parent_ne e he := h.parent_ne e (hperm.mem_iff.mpr he)
  acyclic k hcycle := h.acyclic k (TransGen.mono
    (fun _ _ hnames => ⟨hnames.1, hnames.2.mono fun _ he => hperm.mem_iff.mpr he⟩) k k hcycle)

variable [DecidableEq κ]

theorem filled_agrees (hperm : entries.Perm entries')
    (hroot : designated.isSome ∨ (entries.filter (·.parent.isNone)).length ≤ 1) (traceId traceId' : String) :
    (filledUnder designated traceId entries).Agrees (filledUnder designated traceId' entries') := by
  have h' := h.perm hperm
  have hrootId : rootIdOf designated entries = rootIdOf designated entries' := by
    cases designated with
    | some r => rfl
    | none => exact rootIdOf_perm hperm (hroot.resolve_left Bool.false_ne_true)
  have hkeys : (filledUnder designated traceId entries).declared.keys.Perm
      (filledUnder designated traceId' entries').declared.keys := by
    rw [h.keys_filled, h'.keys_filled]
    exact hperm.map _
  have hentry : ∀ id ∈ (filledUnder designated traceId entries).declared.keys, ∃ e ∈ entries, e.id = id := by
    intro id hid
    rw [h.keys_filled] at hid
    exact List.mem_map.mp hid
  refine ⟨hkeys, fun id => ?_, ?_, fun id => ?_⟩
  · by_cases hid : id ∈ (filledUnder designated traceId entries).declared.keys
    · obtain ⟨e, he, rfl⟩ := hentry id hid
      rw [h.declaredParent_filled traceId he, h'.declaredParent_filled traceId' (hperm.mem_iff.mp he), hrootId]
    · rw [declaredParent_of_not_mem hid, declaredParent_of_not_mem fun hmem => hid (hkeys.mem_iff.mpr hmem)]
  · rw [h.rootId_filled, h'.rootId_filled, hrootId]
  · by_cases hid : id ∈ (filledUnder designated traceId entries).declared.keys
    · obtain ⟨e, he, rfl⟩ := hentry id hid
      rw [h.value?_filled traceId he, h'.value?_filled traceId' (hperm.mem_iff.mp he)]
    · rw [(linked_filledUnder designated traceId entries).value?_of_not_declared hid,
        (linked_filledUnder designated traceId' entries').value?_of_not_declared
          fun hmem => hid (hkeys.mem_iff.mpr hmem)]

/-- Each node but the root is below the node that its entry names, if that came, else below the root. -/
theorem parent?_finished (traceId : String) {e : Entry κ α} (he : e ∈ entries) :
    (filledUnder designated traceId entries).finished.graph.parent? (.id e.id) =
      if .id e.id = (filledUnder designated traceId entries).rootSlot then none
      else some (if e.parent ∈ entries.map (·.id) then .id e.parent
        else (filledUnder designated traceId entries).rootSlot) := by
  have hlinked := linked_filledUnder designated traceId entries
  have hdeclares := h.declares_filled traceId
  have hkeys := h.keys_filled traceId
  rw [hlinked.parent?_finished (hkeys ▸ List.mem_map_of_mem he)]
  split
  · rfl
  · rename_i hne
    have hroot := (hdeclares.id_ne_rootSlot_iff he).mp hne
    rw [linkedParent, hdeclares.declaredParent_eq hlinked he, parentUnder_of_ne hroot]
    congr 1
    cases hparent : e.parent with
    | none =>
      have hout : none ∉ entries.map (·.id) := by
        intro hmem
        obtain ⟨other, hother, hid⟩ := List.mem_map.mp hmem
        simpa [hid] using h.id_isSome other hother
      rw [if_neg hout, parentNode, Option.getD_none]
    | some p =>
      rw [parentNode, hkeys]
      split
      · rfl
      · rfl

end Entry.Fits

namespace TreeBuilder

variable {κ α : Type} [DecidableEq κ]

/-- The shape of a tree does not depend on the order in which its entries come. If there is a designated root, or one
entry without a parent at most, then in every order every entry fits, and the finished trees have the same root and the
same nodes with the same parents and values. -/
theorem build_offerAll_perm (traceId : String) {designated : Option κ} {entries entries' : List (Entry κ α)}
    (h : Entry.Fits designated entries)
    (hroot : designated.isSome ∨ (entries.filter (·.parent.isNone)).length ≤ 1) (hperm : entries.Perm entries') :
    ∃ b : TreeBuilder κ α, start (some traceId) designated = .ok b ∧
      (∀ before e after, entries' = before ++ e :: after →
        ∃ addition, (b.offerAll before).add e = .ok addition ∧ addition.fits = true) ∧
      ∃ completion completion', (b.offerAll entries).build = .ok completion ∧
        (b.offerAll entries').build = .ok completion' ∧ completion.tree.root = completion'.tree.root ∧
        completion.tree.graph.Alike completion'.tree.graph ∧
        ∀ e ∈ entries, completion.tree.graph.parent? (.id e.id) =
          if .id e.id = completion.tree.root then none
          else some (if e.parent ∈ entries.map (·.id) then .id e.parent else completion.tree.root) := by
  have h' := h.perm hperm
  have hagrees := h.filled_agrees hperm hroot traceId traceId
  have hlinked := linked_filledUnder designated traceId entries
  have hlinked' := linked_filledUnder designated traceId entries'
  obtain ⟨completion, hbuild, htree⟩ := build_eq (built_filledUnder designated traceId entries)
  obtain ⟨completion', hbuild', htree'⟩ := build_eq (built_filledUnder designated traceId entries')
  refine ⟨_, rfl, fun before e after hentries => exists_addition_of_accepts (h'.accepts traceId hentries), completion,
    completion', hbuild, hbuild', ?_, ?_, fun e he => ?_⟩
  · rw [htree, htree']
    exact hagrees.rootSlot
  · rw [htree, htree']
    exact hagrees.finished hlinked hlinked'
  · rw [htree]
    exact h.parent?_finished traceId he

/-- Entries of which the designated root names a node below it, one comes before its parent, one never gets a parent, and
two name none. -/
def rootedEntries : List (Entry String Nat) := [
  ⟨some "b", some "r", some 1⟩,
  ⟨some "b", some "c", some 2⟩,
  ⟨some "r", some "a", some 3⟩,
  ⟨some "a", some "b", some 4⟩,
  ⟨some "x", some "d", some 5⟩,
  ⟨none, some "e", some 6⟩,
  ⟨none, some "f", some 7⟩]

/-- How far down an id of those entries stands. -/
def rootedRank (id : String) : Nat :=
  if id = "c" then 3 else if id = "b" then 2 else if id = "a" ∨ id = "d" then 1 else 0

theorem build_offerAll_perm_rootedEntries : Entry.Fits (some "r") rootedEntries ∧
    rootedEntries.Perm rootedEntries.reverse ∧
    ∃ b : TreeBuilder String Nat, start (some "t") (some "r") = .ok b ∧
      (∀ before e after, rootedEntries.reverse = before ++ e :: after →
        ∃ addition, (b.offerAll before).add e = .ok addition ∧ addition.fits = true) ∧
      ∃ completion completion', (b.offerAll rootedEntries).build = .ok completion ∧
        (b.offerAll rootedEntries.reverse).build = .ok completion' ∧ completion.tree.root = completion'.tree.root ∧
        completion.tree.graph.Alike completion'.tree.graph ∧
        ∀ e ∈ rootedEntries, completion.tree.graph.parent? (.id e.id) =
          if .id e.id = completion.tree.root then none
          else some (if e.parent ∈ rootedEntries.map (·.id) then .id e.parent else completion.tree.root) := by
  have hfits : Entry.Fits (some "r") rootedEntries :=
    ⟨by decide, by decide, by decide, by decide, Entry.acyclic_of_rank rootedRank (by decide)⟩
  have hperm : rootedEntries.Perm rootedEntries.reverse := rootedEntries.reverse_perm.symm
  exact ⟨hfits, hperm, build_offerAll_perm "t" hfits (.inl rfl) hperm⟩

end TreeBuilder

end ServiceMap
