import ServiceMap.Proofs.Tree.Arranged

/-!
# Consistent entries

Entries fit a builder if their ids are distinct, none of them names itself, and no id is above itself by the parents that
the entries name, where what a designated root names does not count. All of them are accepted then, in whatever order
they come, because what is declared at any time is among what is named, and so no entry can close a cycle. What the
builder declares in the end is just what the entries say, and the finished tree is known from the entries alone.

Entries that fit a builder without a designated root are consistent.
-/

namespace ServiceMap

open Relation (TransGen)

namespace Entry

variable {κ α : Type} {entries : List (Entry κ α)}

/-- One of the entries has the first id and names the second one as its parent. -/
def Names (entries : List (Entry κ α)) (k p : κ) : Prop := ∃ e ∈ entries, e.id = some k ∧ e.parent = some p

/-- The same, but what the designated root names does not count. -/
def NamesUnder (designated : Option κ) (entries : List (Entry κ α)) (k p : κ) : Prop :=
  some k ≠ designated ∧ Names entries k p

/-- The entries have ids and values, the ids are distinct, no entry names itself, and no id is above itself. -/
structure Fits (designated : Option κ) (entries : List (Entry κ α)) : Prop where
  ids_nodup : (entries.map (·.id)).Nodup
  id_isSome : ∀ e ∈ entries, e.id.isSome
  value_isSome : ∀ e ∈ entries, e.value.isSome
  parent_ne : ∀ e ∈ entries, e.parent ≠ e.id
  acyclic : ∀ k, ¬TransGen (NamesUnder designated entries) k k

/-- The entries have ids and values, the ids are distinct, and no id is above itself. -/
structure Consistent (entries : List (Entry κ α)) : Prop where
  ids_nodup : (entries.map (·.id)).Nodup
  id_isSome : ∀ e ∈ entries, e.id.isSome
  value_isSome : ∀ e ∈ entries, e.value.isSome
  acyclic : ∀ k, ¬TransGen (Names entries) k k

theorem Names.mono {entries' : List (Entry κ α)} (hsubset : entries ⊆ entries') {k p : κ} (h : Names entries k p) :
    Names entries' k p := by
  obtain ⟨e, he, hnames⟩ := h
  exact ⟨e, hsubset he, hnames⟩

/-- Where parents have a lower rank, no id is above itself. -/
theorem acyclic_of_rank {designated : Option κ} (rank : κ → Nat)
    (h : ∀ e ∈ entries, ∀ k ∈ e.id, ∀ p ∈ e.parent, some k ≠ designated → rank p < rank k) (k : κ) :
    ¬TransGen (NamesUnder designated entries) k k := by
  refine not_transGen_self_of_rank rank (fun k p hnames => ?_) k
  obtain ⟨hroot, e, he, hid, hp⟩ := hnames
  exact h e he k hid p hp hroot

theorem Consistent.fits (h : Consistent entries) : Fits none entries where
  ids_nodup := h.ids_nodup
  id_isSome := h.id_isSome
  value_isSome := h.value_isSome
  parent_ne e he heq := by
    obtain ⟨k, hk⟩ := Option.isSome_iff_exists.mp (h.id_isSome e he)
    exact h.acyclic k (.single ⟨e, he, hk, heq.trans hk⟩)
  acyclic k hcycle := h.acyclic k (TransGen.mono (fun _ _ hnames => hnames.2) k k hcycle)

end Entry

namespace TreeBuilder

variable {κ α : Type} [DecidableEq κ] {b : TreeBuilder κ α}

/-! ### Acceptance -/

/-- Where declared parents are named ones, an entry closes no cycle that is none of names: the chain of declared parents
up to the entry would be one of names that leads back to it. -/
theorem closesCycle_eq_false {names : κ → κ → Prop} (habove : ∀ k p, b.above k = some p → names k p)
    (hacyclic : ∀ k, ¬TransGen names k k) {k : κ} {parent : Option κ} (hself : parent ≠ some k)
    (hparent : some k ≠ b.rootId → ∀ p, parent = some p → names k p) : b.closesCycle parent (some k) = false := by
  rw [← Bool.not_eq_true, closesCycle, Bool.or_eq_true, Bool.and_eq_true, Bool.and_eq_true, beq_iff_eq, bne_iff_ne]
  rintro (heq | ⟨⟨hroot, _⟩, hancestor⟩)
  · exact hself heq.symm
  · obtain ⟨k', x, n, hk, hx, _, hclimb⟩ := isAncestorWithin_iff.mp hancestor
    obtain rfl : k = k' := Option.some.inj hk
    have hfirst : names k x := hparent hroot x hx
    cases n with
    | zero => exact hacyclic k (.single (Option.some.inj hclimb ▸ hfirst))
    | succ n =>
      have hrest : TransGen (fun a c => b.above a = some c) x k :=
        exists_climb_iff_transGen.mp ⟨n + 1, Nat.succ_pos n, hclimb⟩
      exact hacyclic k (.head hfirst (TransGen.mono habove x k hrest))

/-- Entries each of which is accepted after those before it are accepted as a whole. -/
theorem accepted_eq_self {entries : List (Entry κ α)}
    (h : ∀ before e after, entries = before ++ e :: after → (b.offerAll before).accepts e = true) :
    b.accepted entries = entries := by
  induction entries generalizing b with
  | nil => rfl
  | cons entry entries ih =>
    have hfirst : b.accepts entry = true := h [] entry entries rfl
    have hrest : (b.offer entry).accepted entries = entries :=
      ih fun before e after heq => h (entry :: before) e after (by rw [heq, List.cons_append])
    rw [accepted, if_pos hfirst, hrest]

/-! ### The builder of some entries -/

/-- A builder that was offered some entries, with a designated root or without one. -/
def filledUnder (designated : Option κ) (traceId : String) (entries : List (Entry κ α)) : TreeBuilder κ α :=
  (⟨traceId, designated, {}, .empty, .empty, false⟩ : TreeBuilder κ α).offerAll entries

section Filled

variable (designated : Option κ) (traceId : String) (entries : List (Entry κ α))

theorem linked_filledUnder : (filledUnder designated traceId entries).Linked :=
  (Linked.start traceId designated).offerAll entries

theorem built_filledUnder : (filledUnder designated traceId entries).built = false :=
  built_offerAll entries

theorem keys_filledUnder_subset : (filledUnder designated traceId entries).declared.keys ⊆ entries.map (·.id) := by
  rw [filledUnder, keys_offerAll]
  exact ((accepted_sublist entries).map _).subset

theorem rootId_filledUnder {r : κ} (hroot : designated = some r) :
    (filledUnder designated traceId entries).rootId = some r := by
  rw [filledUnder, rootId_offerAll, hroot]
  rfl

variable {entries} in
/-- What is declared is named by the entries that were offered. -/
theorem namesUnder_of_above (hids : ∀ e ∈ entries, e.id.isSome) {k p : κ}
    (h : (filledUnder designated traceId entries).above k = some p) : Entry.NamesUnder designated entries k p := by
  have hdeclares : (filledUnder designated traceId entries).Declares _ :=
    (Linked.start traceId designated).entries_offerAll hids
  have hmem := mem_keys_of_declaredParent h
  rw [hdeclares.keys_eq] at hmem
  obtain ⟨e, he, hid⟩ := List.mem_map.mp hmem
  have hparent := hdeclares.declaredParent_eq (linked_filledUnder designated traceId entries) he
  rw [hid, ← above, h, eq_comm, Entry.parentUnder_eq_some_iff] at hparent
  obtain ⟨hroot, hparent⟩ := hparent
  refine ⟨fun hk => ?_, e, (accepted_sublist entries).subset he, hid, hparent⟩
  exact hroot (hid.trans (rootId_filledUnder designated traceId entries hk.symm).symm)

end Filled

end TreeBuilder

namespace Entry.Fits

open TreeBuilder

variable {κ α : Type} [DecidableEq κ] {designated : Option κ} {entries : List (Entry κ α)} (h : Fits designated entries)
  (traceId : String)
include h

theorem accepts {before after : List (Entry κ α)} {e : Entry κ α} (hentries : entries = before ++ e :: after) :
    (filledUnder designated traceId before).accepts e = true := by
  have he : e ∈ entries := hentries ▸ List.mem_append_right _ List.mem_cons_self
  have hbefore : before ⊆ entries := hentries ▸ List.subset_append_left _ _
  obtain ⟨k, hk⟩ := Option.isSome_iff_exists.mp (h.id_isSome e he)
  have hnew : e.id ∉ (filledUnder designated traceId before).declared.keys := by
    have hnodup := h.ids_nodup
    rw [hentries, List.map_append, List.nodup_append] at hnodup
    exact fun hmem => hnodup.2.2 _ (keys_filledUnder_subset designated traceId before hmem) _ List.mem_cons_self rfl
  have habove : ∀ i p, (filledUnder designated traceId before).above i = some p →
      NamesUnder designated entries i p := by
    intro i p hup
    obtain ⟨hout, hnames⟩ := namesUnder_of_above designated traceId (fun e he => h.id_isSome e (hbefore he)) hup
    exact ⟨hout, hnames.mono hbefore⟩
  have hfits : (filledUnder designated traceId before).closesCycle e.parent (some k) = false := by
    refine closesCycle_eq_false habove h.acyclic (hk ▸ h.parent_ne e he) fun hroot p hp => ?_
    refine ⟨fun hdesignated => ?_, e, he, hk, hp⟩
    exact hroot (rootId_filledUnder designated traceId before hdesignated.symm).symm
  exact accepts_iff.mpr ⟨built_filledUnder designated traceId before, hk ▸ hfits, hnew, h.value_isSome e he⟩

theorem accepted_eq :
    (⟨traceId, designated, {}, .empty, .empty, false⟩ : TreeBuilder κ α).accepted entries = entries :=
  accepted_eq_self fun _ _ _ hentries => h.accepts traceId hentries

theorem rootId_filled : (filledUnder designated traceId entries).rootId = rootIdOf designated entries := by
  rw [filledUnder, rootId_offerAll, h.accepted_eq]

theorem declares_filled : (filledUnder designated traceId entries).Declares entries := by
  rw [Declares, filledUnder, (Linked.start traceId designated).entries_offerAll h.id_isSome, h.accepted_eq]
  rfl

theorem keys_filled : (filledUnder designated traceId entries).declared.keys = entries.map (·.id) :=
  (h.declares_filled traceId).keys_eq

theorem declaredParent_filled {e : Entry κ α} (he : e ∈ entries) :
    (filledUnder designated traceId entries).declaredParent e.id = e.parentUnder (rootIdOf designated entries) := by
  rw [(h.declares_filled traceId).declaredParent_eq (linked_filledUnder designated traceId entries) he,
    h.rootId_filled traceId]

theorem value?_filled {e : Entry κ α} (he : e ∈ entries) :
    (filledUnder designated traceId entries).graph.value? (.id e.id) = e.value := by
  refine value?_offerAll entries ?_
  rwa [h.accepted_eq]

end Entry.Fits

namespace Entry.Consistent

open TreeBuilder

variable {κ α : Type} [DecidableEq κ] {entries : List (Entry κ α)} (h : Consistent entries) (traceId : String)
include h

/-- Every parent counts, as the root names none. -/
theorem parentUnder_rootId {e : Entry κ α} (he : e ∈ entries) :
    e.parentUnder (filledUnder none traceId entries).rootId = e.parent := by
  rw [parentUnder, h.fits.rootId_filled]
  split
  · rename_i hroot
    obtain ⟨k, hk⟩ := Option.isSome_iff_exists.mp (h.id_isSome e he)
    obtain ⟨first, hfirst, hid, hparent⟩ := exists_of_rootIdOf_none (hroot.symm.trans hk)
    rw [List.inj_on_of_nodup_map h.ids_nodup he hfirst (hk.trans hid.symm), hparent]
  · rfl

theorem declaredParent_filled {e : Entry κ α} (he : e ∈ entries) :
    (filledUnder none traceId entries).declaredParent e.id = e.parent := by
  rw [(h.fits.declares_filled traceId).declaredParent_eq (linked_filledUnder none traceId entries) he,
    h.parentUnder_rootId traceId he]

theorem declaredChildren_filled (k : κ) : (filledUnder none traceId entries).declaredChildren (some k) =
    (entries.filter (·.parent == some k)).map (·.id) := by
  have hentries : (filledUnder none traceId entries).declared.entries = entries.map fun e => (e.id, e.parent) := by
    rw [h.fits.declares_filled traceId]
    exact List.map_congr_left fun e he => by rw [h.parentUnder_rootId traceId he]
  rw [declaredChildren, hentries, List.filter_map, List.map_map]
  rfl

end Entry.Consistent

end ServiceMap
