import ServiceMap.Proofs.Tree.Consistent

/-!
# Renamed entries

Entries whose ids and parents are renamed, and whose values may change, make a renamed tree: the nodes correspond in
order, with their children and parents. The renaming only has to keep apart the ids that occur. Walks and searches then
correspond as well.
-/

namespace ServiceMap

open Relation (TransGen)

namespace Graph

variable {ι ι' α α' : Type} [DecidableEq ι] [DecidableEq ι']

/-- The nodes of the first graph, renamed and with other values, are those of the second one. -/
structure Renames (f : ι → ι') (v : α → α') (g : Graph ι α) (g' : Graph ι' α') : Prop where
  injective : ∀ i ∈ g.nodes.keys, ∀ j ∈ g.nodes.keys, f i = f j → i = j
  size : g'.size = g.size
  children : ∀ i ∈ g.nodes.keys, g'.children (f i) = (g.children i).map f
  parent? : ∀ i ∈ g.nodes.keys, g'.parent? (f i) = (g.parent? i).map f
  value? : ∀ i ∈ g.nodes.keys, g'.value? (f i) = (g.value? i).map v

theorem IsTree.mem_keys_of_parent? {g : Graph ι α} {root : ι} (h : g.IsTree root) {c p : ι}
    (hp : g.parent? c = some p) : p ∈ g.nodes.keys :=
  mem_keys_of_mem_children (h.mem_children_iff.mpr hp)

theorem IsTree.mem_keys_of_mem_ancestorsUpTo {g : Graph ι α} {root : ι} (h : g.IsTree root) {steps : Nat} {i a : ι}
    (ha : a ∈ g.ancestorsUpTo steps i) : a ∈ g.nodes.keys := by
  induction steps generalizing i with
  | zero => exact absurd ha List.not_mem_nil
  | succ steps ih =>
    rw [ancestorsUpTo] at ha
    split at ha
    · rename_i p hp
      rcases List.mem_cons.mp ha with rfl | ha
      · exact h.mem_keys_of_parent? hp
      · exact ih ha
    · exact absurd ha List.not_mem_nil

namespace Renames

variable {f : ι → ι'} {v : α → α'} {g : Graph ι α} {g' : Graph ι' α'} {root : ι} (h : g.Renames f v g')
  (hg : g.IsTree root)
include h hg

theorem level (depth : Nat) : g'.level (f root) depth = (g.level root depth).map f := by
  induction depth with
  | zero => rfl
  | succ depth ih =>
    rw [Graph.level, Graph.level, ih, List.flatMap_map, List.map_flatMap]
    apply List.flatMap_congr
    intro i hi
    exact h.children i (hg.mem_keys_of_climb (hg.mem_level_iff.mp hi))

theorem breadthFirst (hg' : g'.IsTree (f root)) : g'.breadthFirst (f root) = (g.breadthFirst root).map f := by
  rw [hg'.breadthFirst_eq_levels, hg.breadthFirst_eq_levels, levels, levels, h.size, List.map_flatMap]
  exact List.flatMap_congr fun depth _ => h.level hg depth

theorem ancestorsUpTo (steps : Nat) {i : ι} (hi : i ∈ g.nodes.keys) :
    g'.ancestorsUpTo steps (f i) = (g.ancestorsUpTo steps i).map f := by
  induction steps generalizing i with
  | zero => rfl
  | succ steps ih =>
    rw [Graph.ancestorsUpTo, Graph.ancestorsUpTo, h.parent? i hi]
    cases hp : g.parent? i with
    | none => rfl
    | some p => simp only [Option.map_some, List.map_cons, ih (hg.mem_keys_of_parent? hp)]

theorem ancestors {i : ι} (hi : i ∈ g.nodes.keys) : g'.ancestors (f i) = (g.ancestors i).map f := by
  rw [Graph.ancestors, Graph.ancestors, h.size, h.ancestorsUpTo hg _ hi]

end Renames

end Graph

namespace Slot

variable {κ κ' : Type}

def map (f : κ → κ') : Slot κ → Slot κ'
  | .id k => .id (k.map f)
  | .placeholder => .placeholder

@[simp] theorem map_id (f : κ → κ') (k : Option κ) : (Slot.id k).map f = .id (k.map f) := rfl

@[simp] theorem map_placeholder (f : κ → κ') : (Slot.placeholder : Slot κ).map f = .placeholder := rfl

end Slot

namespace Entry

variable {κ κ' α α' : Type}

/-- An entry with another id and another parent, and with another value. -/
def map (f : κ → κ') (v : α → α') (e : Entry κ α) : Entry κ' α' where
  parent := e.parent.map f
  id := e.id.map f
  value := e.value.map v

/-- The ids that occur in some entries. -/
def Occurs (entries : List (Entry κ α)) (k : κ) : Prop := ∃ e ∈ entries, e.id = some k ∨ e.parent = some k

/-- The renaming keeps apart the ids that occur. -/
def Separates (f : κ → κ') (entries : List (Entry κ α)) : Prop :=
  ∀ i j, Occurs entries i → Occurs entries j → f i = f j → i = j

variable {f : κ → κ'} {v : α → α'} {entries : List (Entry κ α)}

theorem occurs_of_id {e : Entry κ α} (he : e ∈ entries) {k : κ} (hid : e.id = some k) : Occurs entries k :=
  ⟨e, he, .inl hid⟩

theorem occurs_of_parent {e : Entry κ α} (he : e ∈ entries) {p : κ} (hp : e.parent = some p) : Occurs entries p :=
  ⟨e, he, .inr hp⟩

theorem names_map {k' p' : κ'} (h : Names (entries.map (map f v)) k' p') :
    ∃ k p, f k = k' ∧ f p = p' ∧ Names entries k p := by
  obtain ⟨e', he', hk', hp'⟩ := h
  obtain ⟨e, he, rfl⟩ := List.mem_map.mp he'
  obtain ⟨k, hk, rfl⟩ := Option.map_eq_some_iff.mp hk'
  obtain ⟨p, hp, rfl⟩ := Option.map_eq_some_iff.mp hp'
  exact ⟨k, p, rfl, rfl, e, he, hk, hp⟩

/-- What is above a renamed id is a renamed id that is above it. -/
theorem transGen_names_map (hf : Separates f entries) {k' p' : κ'}
    (h : TransGen (Names (entries.map (map f v))) k' p') :
    ∃ k p, f k = k' ∧ f p = p' ∧ TransGen (Names entries) k p ∧ Occurs entries k ∧ Occurs entries p := by
  induction h with
  | single hnames =>
    obtain ⟨k, p, hk, hp, e, he, hid, hparent⟩ := names_map hnames
    exact ⟨k, p, hk, hp, .single ⟨e, he, hid, hparent⟩, occurs_of_id he hid, occurs_of_parent he hparent⟩
  | tail _ hnames ih =>
    obtain ⟨k, p, hk, hp, hchain, hoccurs, hmid⟩ := ih
    obtain ⟨p', q, hp', hq, e, he, hid, hparent⟩ := names_map hnames
    obtain rfl : p = p' := hf p p' hmid (occurs_of_id he hid) (hp.trans hp'.symm)
    exact ⟨k, q, hk, hq, hchain.tail ⟨e, he, hid, hparent⟩, hoccurs, occurs_of_parent he hparent⟩

theorem Consistent.map (h : Consistent entries) (hf : Separates f entries) :
    Consistent (entries.map (Entry.map f v)) where
  ids_nodup := by
    have hids : (entries.map (Entry.map f v)).map (·.id) = (entries.map (·.id)).map (Option.map f) := by
      rw [List.map_map, List.map_map]
      rfl
    rw [hids]
    apply h.ids_nodup.map_on
    intro i hi j hj heq
    obtain ⟨e, he, rfl⟩ := List.mem_map.mp hi
    obtain ⟨e', he', rfl⟩ := List.mem_map.mp hj
    obtain ⟨k, hk⟩ := Option.isSome_iff_exists.mp (h.id_isSome e he)
    obtain ⟨k', hk'⟩ := Option.isSome_iff_exists.mp (h.id_isSome e' he')
    rw [hk, hk'] at heq ⊢
    rw [hf k k' (occurs_of_id he hk) (occurs_of_id he' hk') (Option.some.inj heq)]
  id_isSome e' he' := by
    obtain ⟨e, he, rfl⟩ := List.mem_map.mp he'
    rw [Entry.map, Option.isSome_map]
    exact h.id_isSome e he
  value_isSome e' he' := by
    obtain ⟨e, he, rfl⟩ := List.mem_map.mp he'
    rw [Entry.map, Option.isSome_map]
    exact h.value_isSome e he
  acyclic k' hcycle := by
    obtain ⟨k, p, hk, hp, hchain, hoccurs, hoccurs'⟩ := transGen_names_map hf hcycle
    obtain rfl : k = p := hf k p hoccurs hoccurs' (hk.trans hp.symm)
    exact h.acyclic k hchain

end Entry

/-! ### The tree of renamed entries -/

theorem TreeBuilder.rootIdOf_map {κ κ' α α' : Type} (f : κ → κ') (v : α → α') (l : List (Entry κ α)) :
    rootIdOf none (l.map (Entry.map f v)) = (rootIdOf none l).map f := by
  simp only [rootIdOf, Option.none_or]
  induction l with
  | nil => rfl
  | cons e l ih =>
    rw [List.map_cons, List.findSome?_cons, List.findSome?_cons, ih]
    cases hp : e.parent with
    | none => cases hid : e.id <;> simp [Entry.map, hp, hid]
    | some p => simp [Entry.map, hp]

namespace Entry.Consistent

open TreeBuilder

variable {κ κ' α α' : Type} [DecidableEq κ] [DecidableEq κ'] {f : κ → κ'} {v : α → α'} {entries : List (Entry κ α)}
  (h : Consistent entries) (hf : Separates f entries) (traceId traceId' : String)
include h

theorem exists_of_mem_keys {id : Option κ} (hid : id ∈ (filledUnder none traceId entries).declared.keys) :
    ∃ k, id = some k ∧ Occurs entries k := by
  rw [h.fits.keys_filled] at hid
  obtain ⟨e, he, rfl⟩ := List.mem_map.mp hid
  obtain ⟨k, hk⟩ := Option.isSome_iff_exists.mp (h.id_isSome e he)
  exact ⟨k, hk, occurs_of_id he hk⟩

include hf

theorem keys_filled_map : (filledUnder none traceId' (entries.map (Entry.map f v))).declared.keys =
    (filledUnder none traceId entries).declared.keys.map (Option.map f) := by
  rw [(h.map hf).fits.keys_filled, h.fits.keys_filled, List.map_map, List.map_map]
  rfl

theorem mem_keys_filled_map {k : κ} (hk : Occurs entries k) :
    some (f k) ∈ (filledUnder none traceId' (entries.map (Entry.map f v))).declared.keys ↔
      some k ∈ (filledUnder none traceId entries).declared.keys := by
  rw [h.keys_filled_map hf traceId, List.mem_map]
  constructor
  · rintro ⟨id, hid, heq⟩
    obtain ⟨j, rfl, hj⟩ := h.exists_of_mem_keys traceId hid
    rwa [hf k j hk hj (Option.some.inj heq).symm]
  · intro hmem
    exact ⟨some k, hmem, rfl⟩

theorem declaredParent_filled_map {id : Option κ} (hid : id ∈ (filledUnder none traceId entries).declared.keys) :
    (filledUnder none traceId' (entries.map (Entry.map f v))).declaredParent (id.map f) =
      ((filledUnder none traceId entries).declaredParent id).map f := by
  rw [h.fits.keys_filled] at hid
  obtain ⟨e, he, rfl⟩ := List.mem_map.mp hid
  rw [h.declaredParent_filled traceId he]
  exact (h.map hf).declaredParent_filled traceId' (List.mem_map_of_mem he)

theorem linkedParent_filled_map {id : Option κ} (hid : id ∈ (filledUnder none traceId entries).declared.keys) :
    (filledUnder none traceId' (entries.map (Entry.map f v))).linkedParent (id.map f) =
      ((filledUnder none traceId entries).linkedParent id).map (Slot.map f) := by
  rw [TreeBuilder.linkedParent, TreeBuilder.linkedParent, h.declaredParent_filled_map hf traceId traceId' hid]
  rw [h.fits.keys_filled] at hid
  obtain ⟨e, he, rfl⟩ := List.mem_map.mp hid
  rw [h.declaredParent_filled traceId he]
  cases hp : e.parent with
  | none => rfl
  | some p =>
    simp only [Option.map_some, parentNode, h.mem_keys_filled_map hf traceId traceId' (occurs_of_parent he hp)]
    split
    · rfl
    · rfl

theorem declaredChildren_filled_map {k : κ} (hk : some k ∈ (filledUnder none traceId entries).declared.keys) :
    (filledUnder none traceId' (entries.map (Entry.map f v))).declaredChildren (some (f k)) =
      ((filledUnder none traceId entries).declaredChildren (some k)).map (Option.map f) := by
  obtain ⟨j, hkj, hj⟩ := h.exists_of_mem_keys traceId hk
  obtain rfl : k = j := Option.some.inj hkj
  rw [(h.map hf).declaredChildren_filled, h.declaredChildren_filled, List.filter_map, List.map_map, List.map_map]
  refine congrArg _ (List.filter_congr fun c hc => ?_)
  rw [Function.comp_apply, Entry.map]
  cases hp : c.parent with
  | none => rfl
  | some p =>
    have hiff : f p = f k ↔ p = k := ⟨hf p k (occurs_of_parent hc hp) hj, congrArg f⟩
    rw [Option.map_some, Bool.eq_iff_iff, beq_iff_eq, beq_iff_eq, Option.some.injEq, Option.some.injEq, hiff]

/-! ### The finished tree -/

theorem rootId_filled_map : (filledUnder none traceId' (entries.map (Entry.map f v))).rootId =
    (filledUnder none traceId entries).rootId.map f := by
  rw [(h.map hf).fits.rootId_filled, h.fits.rootId_filled, rootIdOf_map]

omit hf in
/-- The first entry without a parent has an id of its own. -/
theorem mem_keys_rootId {k : κ} (hroot : (filledUnder none traceId entries).rootId = some k) :
    some k ∈ (filledUnder none traceId entries).declared.keys := by
  rw [h.fits.rootId_filled] at hroot
  obtain ⟨e, he, hid, _⟩ := exists_of_rootIdOf_none hroot
  rw [h.fits.keys_filled]
  exact List.mem_map.mpr ⟨e, he, hid⟩

theorem mem_keys_rootId_filled_map :
    (filledUnder none traceId' (entries.map (Entry.map f v))).rootId ∈
        (filledUnder none traceId' (entries.map (Entry.map f v))).declared.keys ↔
      (filledUnder none traceId entries).rootId ∈ (filledUnder none traceId entries).declared.keys := by
  rw [h.rootId_filled_map hf traceId]
  cases hroot : (filledUnder none traceId entries).rootId with
  | none =>
    have hout : none ∉ (filledUnder none traceId entries).declared.keys := by
      intro hmem
      obtain ⟨_, hnone, _⟩ := h.exists_of_mem_keys traceId hmem
      simp at hnone
    have hout' : none ∉ (filledUnder none traceId' (entries.map (Entry.map f v))).declared.keys := by
      intro hmem
      obtain ⟨_, hnone, _⟩ := (h.map hf).exists_of_mem_keys traceId' hmem
      simp at hnone
    rw [Option.map_none, iff_false_intro hout, iff_false_intro hout']
  | some k =>
    obtain ⟨j, hkj, hoccurs⟩ := h.exists_of_mem_keys traceId (h.mem_keys_rootId traceId hroot)
    exact h.mem_keys_filled_map hf traceId traceId' (Option.some.inj hkj ▸ hoccurs)

theorem rootSlot_filled_map : (filledUnder none traceId' (entries.map (Entry.map f v))).rootSlot =
    (filledUnder none traceId entries).rootSlot.map f := by
  have hiff := h.mem_keys_rootId_filled_map (v := v) hf traceId traceId'
  by_cases hroot : (filledUnder none traceId entries).rootId ∈ (filledUnder none traceId entries).declared.keys
  · rw [rootSlot_eq, if_pos (hiff.mpr hroot), rootSlot_eq, if_pos hroot, h.rootId_filled_map hf traceId, Slot.map_id]
  · rw [rootSlot_eq, if_neg (hiff.not.mpr hroot), rootSlot_eq, if_neg hroot, Slot.map_placeholder]

theorem keys_finished_filled_map :
    (filledUnder none traceId' (entries.map (Entry.map f v))).finished.graph.nodes.keys =
      (filledUnder none traceId entries).finished.graph.nodes.keys.map (Slot.map f) := by
  have hiff := h.mem_keys_rootId_filled_map (v := v) hf traceId traceId'
  have hids : (filledUnder none traceId' (entries.map (Entry.map f v))).declared.keys.map Slot.id =
      ((filledUnder none traceId entries).declared.keys.map Slot.id).map (Slot.map f) := by
    rw [h.keys_filled_map hf traceId, List.map_map, List.map_map]
    rfl
  rw [(linked_filledUnder none traceId' _).keys_finished, (linked_filledUnder none traceId _).keys_finished, hids, List.map_append]
  by_cases hroot : (filledUnder none traceId entries).rootId ∈ (filledUnder none traceId entries).declared.keys
  · rw [if_pos (hiff.mpr hroot), if_pos hroot, List.map_nil]
  · rw [if_neg (hiff.not.mpr hroot), if_neg hroot, List.map_singleton, Slot.map_placeholder]

omit [DecidableEq κ'] in
theorem map_injective {i j : Option κ} (hi : i ∈ (filledUnder none traceId entries).declared.keys)
    (hj : j ∈ (filledUnder none traceId entries).declared.keys) (heq : i.map f = j.map f) : i = j := by
  obtain ⟨k, rfl, hk⟩ := h.exists_of_mem_keys traceId hi
  obtain ⟨l, rfl, hl⟩ := h.exists_of_mem_keys traceId hj
  rw [hf k l hk hl (Option.some.inj heq)]

theorem map_eq_rootSlot_iff {id : Option κ} (hid : id ∈ (filledUnder none traceId entries).declared.keys) :
    (Slot.id id).map f = (filledUnder none traceId' (entries.map (Entry.map f v))).rootSlot ↔
      Slot.id id = (filledUnder none traceId entries).rootSlot := by
  rw [h.rootSlot_filled_map hf traceId]
  constructor
  · intro heq
    rw [rootSlot_eq] at heq ⊢
    split at heq
    · rename_i hroot
      rw [if_pos hroot, h.map_injective hf traceId hid hroot (Slot.id.inj heq)]
    · simp at heq
  · intro heq
    rw [heq]

theorem orphanSlots_filled_map : (filledUnder none traceId' (entries.map (Entry.map f v))).orphanSlots =
    (filledUnder none traceId entries).orphanSlots.map (Slot.map f) := by
  simp only [orphanSlots, orphans, (linked_filledUnder none traceId' _).parent?_id, (linked_filledUnder none traceId _).parent?_id,
    h.keys_filled_map hf traceId, List.filter_map, List.map_map]
  refine congrArg _ (List.filter_congr fun id hid => ?_)
  have hroot := h.map_eq_rootSlot_iff (v := v) hf traceId traceId' hid
  rw [Slot.map_id] at hroot
  simp only [Function.comp_apply, h.linkedParent_filled_map hf traceId traceId' hid, Option.isNone_map, bne, beq_eq_decide,
    hroot]

theorem children_filled_map {id : Option κ} (hid : id ∈ (filledUnder none traceId entries).declared.keys) :
    (filledUnder none traceId' (entries.map (Entry.map f v))).graph.children (.id (id.map f)) =
      ((filledUnder none traceId entries).graph.children (.id id)).map (Slot.map f) := by
  have hid' : id.map f ∈ (filledUnder none traceId' (entries.map (Entry.map f v))).declared.keys := by
    rw [h.keys_filled_map hf traceId]
    exact List.mem_map_of_mem hid
  rw [(linked_filledUnder none traceId' _).children_id _ hid', (linked_filledUnder none traceId _).children_id _ hid]
  obtain ⟨k, rfl, _⟩ := h.exists_of_mem_keys traceId hid
  rw [Option.map_some, h.declaredChildren_filled_map hf traceId traceId' hid, List.map_map, List.map_map]
  rfl

theorem filled_renames : (filledUnder none traceId entries).finished.graph.Renames (Slot.map f) v
    (filledUnder none traceId' (entries.map (Entry.map f v))).finished.graph where
  injective i hi j hj heq := by
    rcases (linked_filledUnder none traceId _).mem_keys_finished hi with ⟨id, hid, rfl⟩ | ⟨rfl, _⟩
    · rcases (linked_filledUnder none traceId _).mem_keys_finished hj with ⟨id', hid', rfl⟩ | ⟨rfl, _⟩
      · rw [h.map_injective hf traceId hid hid' (Slot.id.inj heq)]
      · simp at heq
    · rcases (linked_filledUnder none traceId _).mem_keys_finished hj with ⟨id', _, rfl⟩ | ⟨rfl, _⟩
      · simp at heq
      · rfl
  size := by
    rw [← Graph.length_keys, h.keys_finished_filled_map hf traceId, List.length_map, Graph.length_keys]
  children slot hslot := by
    rw [(linked_filledUnder none traceId' _).children_finished, (linked_filledUnder none traceId _).children_finished,
      h.orphanSlots_filled_map hf traceId, List.map_append]
    rcases (linked_filledUnder none traceId _).mem_keys_finished hslot with ⟨id, hid, rfl⟩ | ⟨rfl, hroot⟩
    · rw [Slot.map_id, h.children_filled_map hf traceId traceId' hid, ← Slot.map_id]
      simp only [h.map_eq_rootSlot_iff hf traceId traceId' hid]
      split
      · rfl
      · rfl
    · rw [h.rootSlot_filled_map hf traceId, hroot, Slot.map_placeholder, if_pos rfl, if_pos rfl,
        (linked_filledUnder none traceId' _).children_placeholder, (linked_filledUnder none traceId _).children_placeholder]
      rfl
  parent? slot hslot := by
    rcases (linked_filledUnder none traceId _).mem_keys_finished hslot with ⟨id, hid, rfl⟩ | ⟨rfl, hroot⟩
    · have hid' : id.map f ∈ (filledUnder none traceId' (entries.map (Entry.map f v))).declared.keys := by
        rw [h.keys_filled_map hf traceId]
        exact List.mem_map_of_mem hid
      have hiff := h.map_eq_rootSlot_iff (v := v) hf traceId traceId' hid
      rw [(linked_filledUnder none traceId _).parent?_finished hid, Slot.map_id, (linked_filledUnder none traceId' _).parent?_finished hid',
        h.linkedParent_filled_map hf traceId traceId' hid, ← Slot.map_id]
      by_cases hroot : Slot.id id = (filledUnder none traceId entries).rootSlot
      · rw [if_pos (hiff.mpr hroot), if_pos hroot, Option.map_none]
      · rw [if_neg (hiff.not.mpr hroot), if_neg hroot, Option.map_some, h.rootSlot_filled_map hf traceId,
          Option.getD_map]
    · have hroot' := h.rootSlot_filled_map (v := v) hf traceId traceId'
      rw [hroot, Slot.map_placeholder] at hroot'
      have htop := (linked_filledUnder none traceId entries).parent?_finished_root
      have htop' := (linked_filledUnder none traceId' (entries.map (Entry.map f v))).parent?_finished_root
      rw [hroot] at htop
      rw [hroot'] at htop'
      rw [Slot.map_placeholder, htop, htop', Option.map_none]
  value? slot hslot := by
    rcases (linked_filledUnder none traceId _).mem_keys_finished hslot with ⟨id, hid, rfl⟩ | ⟨rfl, _⟩
    · rw [h.fits.keys_filled] at hid
      obtain ⟨e, he, rfl⟩ := List.mem_map.mp hid
      rw [Slot.map_id, Linked.value?_finished, Linked.value?_finished, h.fits.value?_filled traceId he]
      exact (h.map hf).fits.value?_filled traceId' (List.mem_map_of_mem he)
    · rw [Slot.map_placeholder, (linked_filledUnder none traceId' _).value?_finished_placeholder,
        (linked_filledUnder none traceId _).value?_finished_placeholder, Option.map_none]

end Entry.Consistent

end ServiceMap
