import ServiceMap.Proofs.Tree.Finished

/-!
# How finished trees are arranged

A finished tree is known from the accepted entries alone, down to the order of children: below a node stand the entries
that name it as their parent, in the order in which they came, whether they came before the node or after it. Below the
root stand, after those that name it, the entries that are strays: they name no parent, or one that never came. If the
root never came, the strays are all that is below the node that stands for it.

Here ids are not null. A null id would be the root id as long as there is none, so that the parent it names would not
count.
-/

namespace ServiceMap

namespace Entry

variable {κ α : Type} [DecidableEq κ]

/-- The ids of the entries that name an id as their parent, in order. The parent that the root names does not count. -/
def idsBelow (rootId : Option κ) (entries : List (Entry κ α)) (id : Option κ) : List (Option κ) :=
  (entries.filter fun e => e.id ≠ rootId ∧ e.parent = id).map (·.id)

/-- The ids of the entries that name no parent, or one that is not among them, in order. The root is not counted. -/
def strayIds (rootId : Option κ) (entries : List (Entry κ α)) : List (Option κ) :=
  (entries.filter fun e => e.id ≠ rootId ∧ (e.parent = none ∨ ∀ other ∈ entries, other.id ≠ e.parent)).map (·.id)

/-- The parent that counts for an entry of a tree. -/
def parentUnder (rootId : Option κ) (e : Entry κ α) : Option κ := if e.id = rootId then none else e.parent

theorem parentUnder_of_ne {rootId : Option κ} {e : Entry κ α} (h : e.id ≠ rootId) : e.parentUnder rootId = e.parent :=
  if_neg h

theorem parentUnder_eq_some_iff {rootId : Option κ} {e : Entry κ α} {k : κ} :
    e.parentUnder rootId = some k ↔ e.id ≠ rootId ∧ e.parent = some k := by
  rw [parentUnder]
  split <;> simp_all

end Entry

/-- The tree is arranged as some entries say. The root is the node of the root id or, if no entry has that id, a
placeholder, and the node of each entry has its value. The children of a node are those that name it, and those of the
root are followed by the strays. -/
structure Tree.IsArranged {κ α : Type} [DecidableEq κ] (t : Tree κ α) (rootId : Option κ)
    (entries : List (Entry κ α)) : Prop where
  root_eq : t.root = if rootId ∈ entries.map (·.id) then .id rootId else .placeholder
  value?_id : ∀ e ∈ entries, e.value.isSome ∧ t.graph.value? (.id e.id) = e.value
  value?_placeholder : t.graph.value? .placeholder = none
  children_root : rootId ∈ entries.map (·.id) → t.graph.children t.root =
    (Entry.idsBelow rootId entries rootId ++ Entry.strayIds rootId entries).map .id
  children_placeholder : rootId ∉ entries.map (·.id) →
    t.graph.children t.root = (Entry.strayIds rootId entries).map .id
  children_id : ∀ e ∈ entries, e.id ≠ rootId → t.graph.children (.id e.id) =
    (Entry.idsBelow rootId entries e.id).map .id

namespace TreeBuilder

variable {κ α : Type} [DecidableEq κ] {b : TreeBuilder κ α}

/-! ### What accepted entries declare -/

/-- The parent that counts when an entry is registered is the one that counts in the end: if the root id is found only
later, it is the id of a later entry. -/
theorem parentAfter_eq_parentUnder {entry : Entry κ α} (hid : entry.id.isSome) {later : List (Entry κ α)}
    (hlater : entry.id ∉ later.map (·.id)) : b.parentAfter entry.parent entry.id =
      entry.parentUnder (rootIdOf (b.rootAfter entry.parent entry.id) later) := by
  rw [parentAfter, Entry.parentUnder]
  cases hroot : b.rootAfter entry.parent entry.id with
  | some r => rfl
  | none =>
    have hsome : entry.id ≠ none := Option.isSome_iff_ne_none.mp hid
    have hother : entry.id ≠ rootIdOf none later := by
      intro heq
      obtain ⟨k, hk⟩ := Option.isSome_iff_exists.mp hid
      obtain ⟨e, he, hek, _⟩ := exists_of_rootIdOf_none (heq.symm.trans hk)
      exact hlater (List.mem_map.mpr ⟨e, he, hek.trans hk.symm⟩)
    rw [if_neg hsome, if_neg hother]

/-- What is declared in the end: each accepted entry with the parent that counts for it. -/
theorem Linked.entries_offerAll (h : b.Linked) {entries : List (Entry κ α)} (hids : ∀ e ∈ entries, e.id.isSome) :
    (b.offerAll entries).declared.entries = b.declared.entries ++
      (b.accepted entries).map fun e => (e.id, e.parentUnder (b.offerAll entries).rootId) := by
  induction entries generalizing b with
  | nil => simp [accepted]
  | cons entry entries ih =>
    have hrest := ih (h.offer entry) fun e he => hids e (List.mem_cons_of_mem _ he)
    rw [offerAll_cons, hrest, accepted]
    cases haccepts : b.accepts entry with
    | false => rw [offer_of_not_accepts haccepts, if_neg Bool.false_ne_true]
    | true =>
      obtain ⟨_, _, hnew, _⟩ := accepts_iff.mp haccepts
      obtain ⟨value, _, hoffer⟩ := offer_of_accepts haccepts
      -- No later entry has the id of this one, as the ids of a builder are distinct.
      have hlater : entry.id ∉ ((b.offer entry).accepted entries).map (·.id) := by
        have hnodup := ((h.offer entry).offerAll entries).keys_nodup
        rw [keys_offerAll, keys_offer, if_pos haccepts] at hnodup
        exact fun hmem => (List.nodup_append.mp hnodup).2.2 _ (List.mem_append_right _ (List.mem_singleton_self _)) _
          hmem rfl
      have hparent := parentAfter_eq_parentUnder (b := b) (hids entry List.mem_cons_self) hlater
      have hroot : ((b.offer entry).offerAll entries).rootId =
          rootIdOf (b.rootAfter entry.parent entry.id) ((b.offer entry).accepted entries) := by
        rw [rootId_offerAll, hoffer, rootId_register]
      rw [← hroot] at hparent
      have hdeclared : (b.offer entry).declared.entries =
          b.declared.entries ++ [(entry.id, entry.parentUnder ((b.offer entry).offerAll entries).rootId)] := by
        rw [← hparent, hoffer, declared_register, Table.entries_insert_of_not_mem hnew]
      rw [hdeclared, if_pos rfl, List.map_cons, List.append_assoc, List.singleton_append]

/-! ### A builder that declares some entries -/

/-- What is declared are some entries, each with the parent that counts for it. -/
def Declares (b : TreeBuilder κ α) (entries : List (Entry κ α)) : Prop :=
  b.declared.entries = entries.map fun e => (e.id, e.parentUnder b.rootId)

namespace Declares

variable {entries : List (Entry κ α)} (hd : b.Declares entries)
include hd

theorem keys_eq : b.declared.keys = entries.map (·.id) := by
  rw [Table.keys, hd, List.map_map]
  rfl

theorem declaredChildren_eq (k : κ) : b.declaredChildren (some k) = Entry.idsBelow b.rootId entries (some k) := by
  rw [declaredChildren, hd, List.filter_map, List.map_map, Entry.idsBelow]
  have hfilter : ((fun entry : Option κ × Option κ => entry.2 == some k) ∘ fun e : Entry κ α =>
      (e.id, e.parentUnder b.rootId)) = fun e => decide (e.id ≠ b.rootId ∧ e.parent = some k) := by
    funext e
    rw [Bool.eq_iff_iff, Function.comp_apply, beq_iff_eq, decide_eq_true_eq, Entry.parentUnder_eq_some_iff]
  rw [hfilter]
  rfl

theorem rootSlot_eq : b.rootSlot = if b.rootId ∈ entries.map (·.id) then .id b.rootId else .placeholder := by
  rw [TreeBuilder.rootSlot_eq, hd.keys_eq]

/-- A node is not the root just if it does not have the root id. -/
theorem id_ne_rootSlot_iff {e : Entry κ α} (he : e ∈ entries) : Slot.id e.id ≠ b.rootSlot ↔ e.id ≠ b.rootId := by
  rw [hd.rootSlot_eq]
  split
  · simp
  · rename_i hout
    have hne : e.id ≠ b.rootId := fun heq => hout (heq ▸ List.mem_map_of_mem he)
    simp [hne]

variable (h : b.Linked)
include h

theorem declaredParent_eq {e : Entry κ α} (he : e ∈ entries) : b.declaredParent e.id = e.parentUnder b.rootId := by
  have hget : b.declared.get? e.id = some (e.parentUnder b.rootId) := by
    rw [Table.get?_eq_some_iff h.keys_nodup, hd]
    exact List.mem_map_of_mem he
  rw [declaredParent, hget, Option.getD_some]

/-- A node waits for its parent to the end just if it names none, or one that never came. -/
theorem linkedParent_eq_none_iff {e : Entry κ α} (he : e ∈ entries) (hne : e.id ≠ b.rootId) :
    b.linkedParent e.id = none ↔ e.parent = none ∨ ∀ other ∈ entries, other.id ≠ e.parent := by
  have hout : (∀ other ∈ entries, other.id ≠ e.parent) ↔ e.parent ∉ b.declared.keys := by
    rw [hd.keys_eq, List.mem_map, not_exists]
    exact forall_congr' fun _ => not_and.symm
  rw [linkedParent, hd.declaredParent_eq h he, Entry.parentUnder_of_ne hne, hout]
  cases e.parent with
  | none => simp [parentNode]
  | some p => simp [parentNode]

theorem orphanSlots_eq : b.orphanSlots = (Entry.strayIds b.rootId entries).map .id := by
  rw [orphanSlots, orphans, hd.keys_eq, List.filter_map, Entry.strayIds]
  congr 2
  apply List.filter_congr
  intro e he
  rw [Bool.eq_iff_iff, Function.comp_apply, Bool.and_eq_true, bne_iff_ne, Option.isNone_iff_eq_none, decide_eq_true_eq,
    h.parent?_id, hd.id_ne_rootSlot_iff he]
  exact and_congr_right fun hne => hd.linkedParent_eq_none_iff h he hne

theorem children_eq {e : Entry κ α} (he : e ∈ entries) (hid : e.id.isSome) :
    b.graph.children (.id e.id) = (Entry.idsBelow b.rootId entries e.id).map .id := by
  obtain ⟨k, hk⟩ := Option.isSome_iff_exists.mp hid
  have hmem : e.id ∈ b.declared.keys := hd.keys_eq ▸ List.mem_map_of_mem he
  rw [h.children_id e.id hmem, hk, hd.declaredChildren_eq]

/-! ### The finished tree -/

variable (hids : ∀ e ∈ entries, e.id.isSome)

theorem children_finished_placeholder (hout : b.rootId ∉ entries.map (·.id)) :
    b.finished.graph.children b.rootSlot = (Entry.strayIds b.rootId entries).map .id := by
  have hslot : b.rootSlot = .placeholder := by rw [hd.rootSlot_eq, if_neg hout]
  rw [h.children_finished, if_pos rfl, hd.orphanSlots_eq h, hslot, h.children_placeholder, List.nil_append]

include hids

theorem children_finished_root (hmem : b.rootId ∈ entries.map (·.id)) : b.finished.graph.children b.rootSlot =
    (Entry.idsBelow b.rootId entries b.rootId ++ Entry.strayIds b.rootId entries).map .id := by
  obtain ⟨e, he, hid⟩ := List.mem_map.mp hmem
  have hslot : b.rootSlot = .id e.id := by rw [hd.rootSlot_eq, if_pos hmem, hid]
  rw [h.children_finished, if_pos rfl, hd.orphanSlots_eq h, hslot, hd.children_eq h he (hids e he), List.map_append, hid]

theorem children_finished_id {e : Entry κ α} (he : e ∈ entries) (hne : e.id ≠ b.rootId) :
    b.finished.graph.children (.id e.id) = (Entry.idsBelow b.rootId entries e.id).map .id := by
  rw [h.children_finished, if_neg ((hd.id_ne_rootSlot_iff he).mpr hne), List.append_nil, hd.children_eq h he (hids e he)]

end Declares

/-- The finished tree is arranged as the accepted entries say, whatever else is offered to the builder and in whatever
order. -/
theorem build_offerAll_isArranged (traceId : String) (rootId : Option κ) {entries : List (Entry κ α)}
    (hids : ∀ e ∈ entries, e.id.isSome) :
    ∃ b : TreeBuilder κ α, start (some traceId) rootId = .ok b ∧
      ∃ completion, (b.offerAll entries).build = .ok completion ∧
        completion.tree.IsArranged (rootIdOf rootId (b.accepted entries)) (b.accepted entries) := by
  refine ⟨⟨traceId, rootId, {}, .empty, .empty, false⟩, rfl, ?_⟩
  generalize hb : (⟨traceId, rootId, {}, .empty, .empty, false⟩ : TreeBuilder κ α) = b
  have hstart : b.Linked := hb ▸ Linked.start traceId rootId
  have hlinked : (b.offerAll entries).Linked := hstart.offerAll entries
  have hdeclares : (b.offerAll entries).Declares (b.accepted entries) := by
    rw [Declares, hstart.entries_offerAll hids, ← hb]
    rfl
  have hroot : (b.offerAll entries).rootId = rootIdOf rootId (b.accepted entries) := by
    rw [rootId_offerAll, ← hb]
  have haccepted : ∀ e ∈ b.accepted entries, e.id.isSome := fun e he => hids e ((accepted_sublist entries).subset he)
  obtain ⟨completion, hbuild, htree⟩ := build_eq (b := b.offerAll entries) (by rw [built_offerAll, ← hb])
  refine ⟨completion, hbuild, ?_⟩
  rw [htree, ← hroot]
  exact {
    root_eq := hdeclares.rootSlot_eq
    value?_id := fun e he => by
      rw [Linked.value?_finished, value?_offerAll entries he]
      exact ⟨isSome_of_mem_accepted he, rfl⟩
    value?_placeholder := hlinked.value?_finished_placeholder
    children_root := hdeclares.children_finished_root hlinked haccepted
    children_placeholder := hdeclares.children_finished_placeholder hlinked
    children_id := fun _ he hne => hdeclares.children_finished_id hlinked haccepted he hne }

/-- Entries of which the first comes before its parent, the second never gets one, and the third is the root. Then there
is one with an old id, one that names itself, one without a value, and one that comes after its parent. -/
def mixedEntries : List (Entry String Nat) := [
  ⟨some "a", some "b", some 1⟩,
  ⟨some "x", some "c", some 2⟩,
  ⟨none, some "a", some 3⟩,
  ⟨none, some "b", some 4⟩,
  ⟨some "d", some "d", some 5⟩,
  ⟨some "a", some "e", none⟩,
  ⟨some "a", some "f", some 7⟩]

theorem build_offerAll_isArranged_mixedEntries : (∀ e ∈ mixedEntries, e.id.isSome) ∧
    ∃ b : TreeBuilder String Nat, start (some "t") none = .ok b ∧
      ∃ completion, (b.offerAll mixedEntries).build = .ok completion ∧
        completion.tree.IsArranged (rootIdOf none (b.accepted mixedEntries)) (b.accepted mixedEntries) :=
  ⟨by decide, build_offerAll_isArranged "t" none (by decide)⟩

end TreeBuilder

end ServiceMap
