import ServiceMap.Proofs.Tree.Arranged

/-!
# What is noted when a tree is finished

Finishing a tree notes just the attributions it makes: that the root is missing, if no entry has its id, and then the
nodes that go below the root because they wait for a parent that never came or name none, in the order in which they
came. Below a missing root, those that could have been expected there go without saying: the ones that name no parent, and
those that name the root.

A missing root that has no id yet gets one. It is the parent that the first of the waiting nodes names, and there is such
a node unless there are none at all, as the declared parents form no cycle.
-/

namespace ServiceMap

namespace Entry

variable {κ α : Type} [DecidableEq κ]

/-- The entry is not the root, and names no parent or one that is not among the entries. -/
def IsStray (rootId : Option κ) (entries : List (Entry κ α)) (e : Entry κ α) : Prop :=
  e.id ≠ rootId ∧ (e.parent = none ∨ ∀ other ∈ entries, other.id ≠ e.parent)

instance (rootId : Option κ) (entries : List (Entry κ α)) (e : Entry κ α) : Decidable (e.IsStray rootId entries) :=
  inferInstanceAs (Decidable (_ ∧ _))

theorem strayIds_eq (rootId : Option κ) (entries : List (Entry κ α)) :
    strayIds rootId entries = (entries.filter (·.IsStray rootId entries)).map (·.id) := rfl

/-- An entry that is neither the root nor a stray names one of the entries. -/
theorem parent_mem_of_not_isStray {rootId : Option κ} {entries : List (Entry κ α)} {e : Entry κ α}
    (hid : e.id ≠ rootId) (h : ¬e.IsStray rootId entries) : e.parent ∈ entries.map (·.id) := by
  by_contra hout
  refine h ⟨hid, .inr fun other hother heq => hout ?_⟩
  exact heq ▸ List.mem_map_of_mem hother

end Entry

namespace TreeBuilder

variable {κ α : Type} [DecidableEq κ] {b : TreeBuilder κ α}

/-! ### Finishing, part by part -/

/-- The root id of the finished tree: if there is none and the root is missing, the parent of the first orphan. -/
def finalRootId (b : TreeBuilder κ α) : Option κ :=
  if !b.declared.contains b.rootId && b.rootId.isNone then
    ((b.orphans b.rootSlot).head?.map b.declaredParent).getD none
  else b.rootId

/-- An orphan is noted unless it could be expected below a missing root. -/
def notesOrphan (b : TreeBuilder κ α) (id : Option κ) : Bool :=
  b.declared.contains b.rootId || !(b.declaredParent id == none || b.declaredParent id == b.finalRootId)

def buildNotes (b : TreeBuilder κ α) : List (TreeNote κ) :=
  (if b.declared.contains b.rootId then [] else [.missingRoot b.traceId]) ++
    ((b.orphans b.rootSlot).filter b.notesOrphan).map (.orphan b.traceId b.finalRootId)

theorem build_eq_ok (hbuilt : b.built = false) : b.build = .ok {
    builder := { traceId := b.traceId, rootId := b.finalRootId, built := true }
    tree := b.finished
    notes := b.buildNotes } := by
  simp only [build, hbuilt, Bool.false_eq_true, if_false]
  unfold buildNotes notesOrphan finalRootId finished orphanSlots rootedGraph rootSlot
  simp only [Graph.linkAll, List.foldl_map]
  cases b.declared.contains b.rootId with
  | true => rfl
  | false => rfl

theorem finalRootId_of_some {r : κ} (h : b.rootId = some r) : b.finalRootId = some r := by
  simp [finalRootId, h]

theorem finalRootId_of_none (h : b.rootId = none) (hout : none ∉ b.declared.keys) :
    b.finalRootId = ((b.orphans b.rootSlot).head?.map b.declaredParent).getD none := by
  have hmissing : b.declared.contains none = false := by
    rwa [← Bool.not_eq_true, Table.contains_iff_mem_keys]
  simp [finalRootId, h, hmissing]

theorem notesOrphan_iff {id : Option κ} : b.notesOrphan id = true ↔
    b.rootId ∈ b.declared.keys ∨ b.declaredParent id ≠ none ∧ b.declaredParent id ≠ b.finalRootId := by
  rw [notesOrphan, Bool.or_eq_true, Table.contains_iff_mem_keys, Bool.not_eq_true', Bool.or_eq_false_iff,
    beq_eq_false_iff_ne, beq_eq_false_iff_ne]

/-! ### What is noted -/

/-- The node of an id had no parent until the tree was finished, and then it went below the root. -/
def Completion.Attributes (c : Completion κ α) (before : TreeBuilder κ α) (id : Option κ) : Prop :=
  before.graph.parent? (.id id) = none ∧ c.tree.graph.parent? (.id id) = some c.tree.root

instance (c : Completion κ α) (before : TreeBuilder κ α) (id : Option κ) : Decidable (c.Attributes before id) :=
  inferInstanceAs (Decidable (_ ∧ _))

/-- What is noted is that the root is missing, if no entry has its id, and each attribution, in the order of the entries.
Below a missing root, entries without a parent and those that name the root go without saying. The root id stays what it
was if there was one; else it is the parent that the first entry below no other one names. -/
structure Completion.NotesAttributions (c : Completion κ α) (before : TreeBuilder κ α) (traceId : String)
    (rootId : Option κ) (entries : List (Entry κ α)) : Prop where
  notes_eq : c.notes = (if rootId ∈ entries.map (·.id) then [] else [.missingRoot traceId]) ++
    (entries.filter fun e => c.Attributes before e.id ∧
      (rootId ∈ entries.map (·.id) ∨ e.parent ≠ none ∧ e.parent ≠ c.builder.rootId)).map
        fun e => .orphan traceId c.builder.rootId e.id
  rootId_of_some : ∀ r, rootId = some r → c.builder.rootId = some r
  rootId_of_none : rootId = none → entries ≠ [] → ∃ front e back p, entries = front ++ e :: back ∧
    (∀ other ∈ front, other.parent ∈ entries.map (·.id)) ∧ e.parent = some p ∧ some p ∉ entries.map (·.id) ∧
      c.builder.rootId = some p
  rootId_of_nil : rootId = none → entries = [] → c.builder.rootId = none

omit [DecidableEq κ] in
theorem parent_ne_none_of_rootIdOf {rootId : Option κ} {entries : List (Entry κ α)} (h : rootIdOf rootId entries = none)
    {e : Entry κ α} (he : e ∈ entries) (hid : e.id.isSome) : e.parent ≠ none := by
  intro hparent
  rw [rootIdOf, Option.or_eq_none_iff, List.findSome?_eq_none_iff] at h
  have hnone := h.2 e he
  rw [hparent, Option.isNone_none, if_pos rfl] at hnone
  simp [hnone] at hid

namespace Declares

variable {entries : List (Entry κ α)} (hd : b.Declares entries) (h : b.Linked)
include hd h

theorem orphans_eq : b.orphans b.rootSlot = Entry.strayIds b.rootId entries :=
  List.map_injective_iff.mpr (fun _ _ => Slot.id.inj) (hd.orphanSlots_eq h)

/-- The attributed entries are the strays. -/
theorem attributes_iff {c : Completion κ α} (htree : c.tree = b.finished) {e : Entry κ α} (he : e ∈ entries) :
    c.Attributes b e.id ↔ e.IsStray b.rootId entries := by
  have hmem : e.id ∈ b.declared.keys := hd.keys_eq ▸ List.mem_map_of_mem he
  rw [Completion.Attributes, htree, h.parent?_id, h.parent?_finished hmem, Entry.IsStray, ← hd.id_ne_rootSlot_iff he]
  by_cases hroot : Slot.id e.id = b.rootSlot
  · simp [hroot]
  · have hne : e.id ≠ b.rootId := (hd.id_ne_rootSlot_iff he).mp hroot
    rw [← hd.linkedParent_eq_none_iff h he hne, if_neg hroot]
    constructor
    · rintro ⟨hlinked, _⟩
      exact ⟨hroot, hlinked⟩
    · rintro ⟨_, hlinked⟩
      exact ⟨hlinked, by rw [hlinked]; rfl⟩

/-! ### The root id of a missing root -/

/-- If all entries named entries, declared parents would form a cycle. -/
theorem exists_isStray (hids : ∀ e ∈ entries, e.id.isSome) (hnamed : ∀ e ∈ entries, e.parent ≠ none)
    (hroot : b.rootId = none) (hsome : entries ≠ []) : ∃ e ∈ entries, e.IsStray b.rootId entries := by
  by_contra hstray
  have hup : ∀ k, some k ∈ b.declared.keys → ∃ p, b.above k = some p ∧ some p ∈ b.declared.keys := by
    intro k hk
    rw [hd.keys_eq] at hk ⊢
    obtain ⟨e, he, hek⟩ := List.mem_map.mp hk
    have hne : e.id ≠ b.rootId := by simp [hek, hroot]
    have hmem := Entry.parent_mem_of_not_isStray hne fun h => hstray ⟨e, he, h⟩
    obtain ⟨p, hp⟩ := Option.ne_none_iff_exists'.mp (hnamed e he)
    refine ⟨p, ?_, hp ▸ hmem⟩
    rw [above, ← hek, hd.declaredParent_eq h he, Entry.parentUnder_of_ne hne, hp]
  have hempty : ∀ k, some k ∉ b.declared.keys := by
    refine h.acyclic.induction_on (fun _ _ => mem_ids_of_above) fun k ih hk => ?_
    obtain ⟨p, hp, hmem⟩ := hup k hk
    exact ih p hp hmem
  obtain ⟨e, he⟩ := List.exists_mem_of_ne_nil _ hsome
  obtain ⟨k, hk⟩ := Option.isSome_iff_exists.mp (hids e he)
  exact hempty k (hd.keys_eq ▸ hk ▸ List.mem_map_of_mem he)

/-- The root id that a missing root gets is the parent of the first entry whose parent never came. -/
theorem exists_finalRootId_eq (hids : ∀ e ∈ entries, e.id.isSome) (hnamed : ∀ e ∈ entries, e.parent ≠ none)
    (hroot : b.rootId = none) (hsome : entries ≠ []) :
    ∃ front e back p, entries = front ++ e :: back ∧ (∀ other ∈ front, other.parent ∈ entries.map (·.id)) ∧
      e.parent = some p ∧ some p ∉ entries.map (·.id) ∧ b.finalRootId = some p := by
  have hne : ∀ e ∈ entries, e.id ≠ b.rootId := fun e he => hroot ▸ Option.isSome_iff_ne_none.mp (hids e he)
  have hout : none ∉ b.declared.keys := by
    rw [hd.keys_eq]
    intro hmem
    obtain ⟨e, he, hnone⟩ := List.mem_map.mp hmem
    exact hne e he (hnone.trans hroot.symm)
  obtain ⟨stray, hstray, hisStray⟩ := hd.exists_isStray h hids hnamed hroot hsome
  have hfound : (entries.find? (·.IsStray b.rootId entries)).isSome :=
    List.find?_isSome.mpr ⟨stray, hstray, decide_eq_true hisStray⟩
  obtain ⟨e, he⟩ := Option.isSome_iff_exists.mp hfound
  obtain ⟨hfirst, front, back, hsplit, hfront⟩ := List.find?_eq_some_iff_append.mp he
  have hmem : e ∈ entries := List.mem_of_find?_eq_some he
  obtain ⟨p, hp⟩ := Option.ne_none_iff_exists'.mp (hnamed e hmem)
  refine ⟨front, e, back, p, hsplit, fun other hother => ?_, hp, ?_, ?_⟩
  · have hbefore : other ∈ entries := hsplit ▸ List.mem_append_left _ hother
    exact Entry.parent_mem_of_not_isStray (hne other hbefore) (by simpa using hfront other hother)
  · intro hcame
    obtain ⟨other, hother, heq⟩ := List.mem_map.mp hcame
    rcases (of_decide_eq_true hfirst).2 with hnone | hall
    · exact hnamed e hmem hnone
    · exact hall other hother (heq.trans hp.symm)
  · rw [finalRootId_of_none hroot hout, hd.orphans_eq h, Entry.strayIds_eq, List.head?_map, List.head?_filter, he,
      Option.map_some, Option.map_some, hd.declaredParent_eq h hmem, Entry.parentUnder_of_ne (hne e hmem), hp,
      Option.getD_some]

/-! ### The notes -/

theorem buildNotes_eq {c : Completion κ α} (htree : c.tree = b.finished) : b.buildNotes =
    (if b.rootId ∈ entries.map (·.id) then [] else [.missingRoot b.traceId]) ++
      (entries.filter fun e => c.Attributes b e.id ∧
        (b.rootId ∈ entries.map (·.id) ∨ e.parent ≠ none ∧ e.parent ≠ b.finalRootId)).map
          fun e => TreeNote.orphan b.traceId b.finalRootId e.id := by
  have hnoted : (entries.filter fun e => e.IsStray b.rootId entries).filter (fun e => b.notesOrphan e.id) =
      entries.filter fun e => c.Attributes b e.id ∧
        (b.rootId ∈ entries.map (·.id) ∨ e.parent ≠ none ∧ e.parent ≠ b.finalRootId) := by
    rw [List.filter_filter]
    apply List.filter_congr
    intro e he
    rw [Bool.eq_iff_iff, Bool.and_eq_true, decide_eq_true_eq, decide_eq_true_eq, notesOrphan_iff,
      hd.attributes_iff h htree he, hd.keys_eq, and_comm]
    refine and_congr_right fun hstray => ?_
    rw [hd.declaredParent_eq h he, Entry.parentUnder_of_ne hstray.1]
  rw [buildNotes, hd.orphans_eq h, Entry.strayIds_eq, List.filter_map, List.map_map]
  simp only [Table.contains_iff_mem_keys, hd.keys_eq]
  congr 1
  exact congrArg _ hnoted

theorem notesAttributions {designated : Option κ} (hids : ∀ e ∈ entries, e.id.isSome)
    (hrootId : b.rootId = rootIdOf designated entries) (hbuilt : b.built = false) :
    ∃ completion, b.build = .ok completion ∧ completion.NotesAttributions b b.traceId b.rootId entries := by
  refine ⟨_, build_eq_ok hbuilt, ?_⟩
  exact {
    notes_eq := hd.buildNotes_eq h rfl
    rootId_of_some := fun r hr => finalRootId_of_some hr
    rootId_of_none := fun hroot hsome => by
      have hnone : rootIdOf designated entries = none := hrootId.symm.trans hroot
      have hnamed : ∀ e ∈ entries, e.parent ≠ none := fun e he => parent_ne_none_of_rootIdOf hnone he (hids e he)
      exact hd.exists_finalRootId_eq h hids hnamed hroot hsome
    rootId_of_nil := fun hroot hnil => by
      subst hnil
      have hout : none ∉ b.declared.keys := by
        rw [hd.keys_eq]
        exact List.not_mem_nil
      refine (finalRootId_of_none hroot hout).trans ?_
      rw [hd.orphans_eq h]
      rfl }

end Declares

@[simp] theorem traceId_offer (b : TreeBuilder κ α) (entry : Entry κ α) : (b.offer entry).traceId = b.traceId := by
  cases haccepts : b.accepts entry with
  | false => rw [offer_of_not_accepts haccepts]
  | true =>
    obtain ⟨value, _, hoffer⟩ := offer_of_accepts haccepts
    rw [hoffer, register_eq, adopt_eq, attach_eq]
    rfl

@[simp] theorem traceId_offerAll (b : TreeBuilder κ α) (entries : List (Entry κ α)) :
    (b.offerAll entries).traceId = b.traceId := by
  induction entries generalizing b with
  | nil => rfl
  | cons entry entries ih => rw [offerAll_cons, ih, traceId_offer]

/-- Whatever was offered to a builder, finishing the tree notes the attributions that are made, and no others. -/
theorem build_offerAll_notesAttributions (traceId : String) (rootId : Option κ) {entries : List (Entry κ α)}
    (hids : ∀ e ∈ entries, e.id.isSome) :
    ∃ b : TreeBuilder κ α, start (some traceId) rootId = .ok b ∧
      ∃ completion, (b.offerAll entries).build = .ok completion ∧
        completion.NotesAttributions (b.offerAll entries) traceId (rootIdOf rootId (b.accepted entries))
          (b.accepted entries) := by
  refine ⟨⟨traceId, rootId, {}, .empty, .empty, false⟩, rfl, ?_⟩
  generalize hb : (⟨traceId, rootId, {}, .empty, .empty, false⟩ : TreeBuilder κ α) = b
  have hstart : b.Linked := hb ▸ Linked.start traceId rootId
  have hlinked : (b.offerAll entries).Linked := hstart.offerAll entries
  have hdeclares : (b.offerAll entries).Declares (b.accepted entries) := by
    rw [Declares, hstart.entries_offerAll hids, ← hb]
    rfl
  have hroot : (b.offerAll entries).rootId = rootIdOf rootId (b.accepted entries) := by rw [rootId_offerAll, ← hb]
  have htrace : (b.offerAll entries).traceId = traceId := by rw [traceId_offerAll, ← hb]
  have haccepted : ∀ e ∈ b.accepted entries, e.id.isSome := fun e he => hids e ((accepted_sublist entries).subset he)
  have hbuilt : (b.offerAll entries).built = false := by rw [built_offerAll, ← hb]
  obtain ⟨completion, hbuild, hnoted⟩ := hdeclares.notesAttributions hlinked haccepted hroot hbuilt
  rw [htrace, hroot] at hnoted
  exact ⟨completion, hbuild, hnoted⟩

/-- Entries without the root: the first one to come names one that comes later, the next ones name `r` and `x`, which
never come. -/
def headlessEntries : List (Entry String Nat) := [
  ⟨some "b", some "a", some 1⟩,
  ⟨some "r", some "b", some 2⟩,
  ⟨some "x", some "c", some 3⟩,
  ⟨some "c", some "c", some 4⟩,
  ⟨some "r", some "d", some 5⟩]

theorem build_offerAll_notesAttributions_headlessEntries : (∀ e ∈ headlessEntries, e.id.isSome) ∧
    ∃ b : TreeBuilder String Nat, start (some "t") none = .ok b ∧
      ∃ completion, (b.offerAll headlessEntries).build = .ok completion ∧
        completion.NotesAttributions (b.offerAll headlessEntries) "t" (rootIdOf none (b.accepted headlessEntries))
          (b.accepted headlessEntries) :=
  ⟨by decide, build_offerAll_notesAttributions "t" none (by decide)⟩

/-- The missing root gets the id `r`, which `b` and `d` name; only `c` is noted. -/
example :
    let b : TreeBuilder String Nat := ⟨"t", none, {}, .empty, .empty, false⟩
    ((b.offerAll headlessEntries).build.toOption.map fun c => (c.builder.rootId, c.notes)) =
      some (some "r", [.missingRoot "t", .orphan "t" (some "r") (some "c")]) := by
  decide

end TreeBuilder

end ServiceMap
