import ServiceMap.Proofs.Tree.Linked

/-!
# Offering entries

Entries are offered to a builder one after the other, whatever becomes of each. An entry is accepted if it gets a node;
any other one, refused, passed over or an error, leaves the builder as it is. The nodes of a builder are the accepted
entries, under their ids and with their values, in the order in which they came.
-/

namespace ServiceMap

namespace TreeBuilder

variable {κ α : Type} [DecidableEq κ]

/-- The entry gets a node: adding it is no error, it fits, and nothing is noted. -/
def accepts (b : TreeBuilder κ α) (entry : Entry κ α) : Bool :=
  match b.add entry with
  | .ok addition => addition.fits && addition.notes.isEmpty
  | .error _ => false

def offer (b : TreeBuilder κ α) (entry : Entry κ α) : TreeBuilder κ α :=
  match b.add entry with
  | .ok addition => addition.builder
  | .error _ => b

def offerAll (b : TreeBuilder κ α) (entries : List (Entry κ α)) : TreeBuilder κ α := entries.foldl offer b

/-- The accepted ones of entries that are offered one after the other. -/
def accepted (b : TreeBuilder κ α) : List (Entry κ α) → List (Entry κ α)
  | [] => []
  | entry :: entries =>
    if b.accepts entry then entry :: (b.offer entry).accepted entries else (b.offer entry).accepted entries

variable {b : TreeBuilder κ α} {entry : Entry κ α}

theorem add_cases (b : TreeBuilder κ α) (entry : Entry κ α) :
    (b.built = true ∧ b.add entry = .error .alreadyBuilt) ∨
    (b.built = false ∧ b.closesCycle entry.parent entry.id = true ∧
      b.add entry = .ok ⟨b, false, [.circular b.traceId entry.id]⟩) ∨
    (b.built = false ∧ b.closesCycle entry.parent entry.id = false ∧ entry.id ∈ b.declared.keys ∧
      b.add entry = .ok ⟨b, true, [.duplicate b.traceId entry.id]⟩) ∨
    (b.built = false ∧ b.closesCycle entry.parent entry.id = false ∧ entry.id ∉ b.declared.keys ∧
      entry.value = none ∧ b.add entry = .error .noValue) ∨
    (b.built = false ∧ b.closesCycle entry.parent entry.id = false ∧ entry.id ∉ b.declared.keys ∧
      ∃ value, entry.value = some value ∧ b.add entry = .ok ⟨b.register entry.parent entry.id value, true, []⟩) := by
  rw [← Table.contains_iff_mem_keys, Bool.not_eq_true, add]
  cases hbuilt : b.built with
  | true => simp
  | false =>
    cases hfits : b.closesCycle entry.parent entry.id with
    | true => simp
    | false =>
      cases hold : b.declared.contains entry.id with
      | true => simp
      | false => cases hvalue : entry.value <;> simp

theorem accepts_iff : b.accepts entry = true ↔
    b.built = false ∧ b.closesCycle entry.parent entry.id = false ∧ entry.id ∉ b.declared.keys ∧
      entry.value.isSome := by
  rw [accepts]
  rcases add_cases b entry with ⟨hbuilt, hadd⟩ | ⟨hbuilt, hfits, hadd⟩ | ⟨hbuilt, hfits, hold, hadd⟩ |
    ⟨hbuilt, hfits, hnew, hvalue, hadd⟩ | ⟨hbuilt, hfits, hnew, value, hvalue, hadd⟩
  · simp [hadd, hbuilt]
  · simp [hadd, hfits]
  · simp [hadd, hold]
  · simp [hadd, hvalue]
  · simp [hadd, hbuilt, hfits, hnew, hvalue]

theorem exists_addition_of_accepts (h : b.accepts entry = true) :
    ∃ addition, b.add entry = .ok addition ∧ addition.fits = true := by
  rw [accepts] at h
  cases hadd : b.add entry with
  | error e => simp [hadd] at h
  | ok addition =>
    simp only [hadd, Bool.and_eq_true] at h
    exact ⟨addition, rfl, h.1⟩

theorem offer_of_accepts (h : b.accepts entry = true) :
    ∃ value, entry.value = some value ∧ b.offer entry = b.register entry.parent entry.id value := by
  rw [accepts] at h
  rcases add_cases b entry with ⟨_, hadd⟩ | ⟨_, _, hadd⟩ | ⟨_, _, _, hadd⟩ | ⟨_, _, _, _, hadd⟩ |
    ⟨_, _, _, value, hvalue, hadd⟩
  all_goals simp only [hadd] at h
  · simp at h
  · simp at h
  · simp at h
  · simp at h
  · exact ⟨value, hvalue, by rw [offer, hadd]⟩

theorem offer_of_not_accepts (h : b.accepts entry = false) : b.offer entry = b := by
  rw [accepts] at h
  rcases add_cases b entry with ⟨_, hadd⟩ | ⟨_, _, hadd⟩ | ⟨_, _, _, hadd⟩ | ⟨_, _, _, _, hadd⟩ |
    ⟨_, _, _, _, _, hadd⟩
  · rw [offer, hadd]
  · rw [offer, hadd]
  · rw [offer, hadd]
  · rw [offer, hadd]
  · simp [hadd] at h

@[simp] theorem offerAll_nil (b : TreeBuilder κ α) : b.offerAll [] = b := rfl

@[simp] theorem offerAll_cons (b : TreeBuilder κ α) (entry : Entry κ α) (entries : List (Entry κ α)) :
    b.offerAll (entry :: entries) = (b.offer entry).offerAll entries := rfl

/-! ### What every offer keeps -/

theorem Linked.offer (h : b.Linked) (entry : Entry κ α) : (b.offer entry).Linked := by
  cases haccepts : b.accepts entry with
  | false => rwa [offer_of_not_accepts haccepts]
  | true =>
    obtain ⟨_, hfits, hnew, _⟩ := accepts_iff.mp haccepts
    obtain ⟨value, _, hoffer⟩ := offer_of_accepts haccepts
    exact hoffer ▸ h.register hnew hfits value

theorem Linked.offerAll (h : b.Linked) (entries : List (Entry κ α)) : (b.offerAll entries).Linked := by
  induction entries generalizing b with
  | nil => exact h
  | cons entry entries ih => exact ih (h.offer entry)

@[simp] theorem built_offer : (b.offer entry).built = b.built := by
  cases haccepts : b.accepts entry with
  | false => rw [offer_of_not_accepts haccepts]
  | true =>
    obtain ⟨value, _, hoffer⟩ := offer_of_accepts haccepts
    rw [hoffer, built_register]

@[simp] theorem built_offerAll (entries : List (Entry κ α)) : (b.offerAll entries).built = b.built := by
  induction entries generalizing b with
  | nil => rfl
  | cons entry entries ih => rw [offerAll_cons, ih, built_offer]

/-- Entries with values can be added one after the other to a tree that is not finished, and come to the same as when
they are offered. -/
theorem addAll_eq_offerAll (hbuilt : b.built = false) {entries : List (Entry κ α)}
    (hvalue : ∀ e ∈ entries, e.value.isSome) : ∃ notes, b.addAll entries = .ok (b.offerAll entries, notes) := by
  induction entries generalizing b with
  | nil => exact ⟨[], rfl⟩
  | cons entry entries ih =>
    have hadd : ∃ addition, b.add entry = .ok addition := by
      rcases add_cases b entry with ⟨hfinished, _⟩ | ⟨_, _, hadd⟩ | ⟨_, _, _, hadd⟩ | ⟨_, _, _, hnone, _⟩ |
        ⟨_, _, _, _, _, hadd⟩
      · simp [hbuilt] at hfinished
      · exact ⟨_, hadd⟩
      · exact ⟨_, hadd⟩
      · simpa [hnone] using hvalue entry List.mem_cons_self
      · exact ⟨_, hadd⟩
    obtain ⟨addition, hadd⟩ := hadd
    have hoffer : b.offer entry = addition.builder := by rw [offer, hadd]
    have hstill : addition.builder.built = false := by rw [← hoffer, built_offer, hbuilt]
    obtain ⟨notes, hrest⟩ := ih hstill fun e he => hvalue e (List.mem_cons_of_mem _ he)
    refine ⟨addition.notes ++ notes, ?_⟩
    simp only [addAll, hadd, hrest, offerAll_cons, hoffer, bind, Except.bind, pure, Except.pure]

theorem keys_offer : (b.offer entry).declared.keys =
    if b.accepts entry then b.declared.keys ++ [entry.id] else b.declared.keys := by
  cases haccepts : b.accepts entry with
  | false => simp [offer_of_not_accepts haccepts]
  | true =>
    obtain ⟨_, _, hnew, _⟩ := accepts_iff.mp haccepts
    obtain ⟨value, _, hoffer⟩ := offer_of_accepts haccepts
    rw [hoffer, keys_register hnew, if_pos rfl]

/-- The ids of a builder are those of the accepted entries. -/
theorem keys_offerAll (entries : List (Entry κ α)) :
    (b.offerAll entries).declared.keys = b.declared.keys ++ (b.accepted entries).map (·.id) := by
  induction entries generalizing b with
  | nil => simp [accepted]
  | cons entry entries ih =>
    rw [offerAll_cons, ih, keys_offer, accepted]
    split <;> simp

/-- What is accepted is accepted in the order in which it was offered. -/
theorem accepted_sublist (entries : List (Entry κ α)) : (b.accepted entries).Sublist entries := by
  induction entries generalizing b with
  | nil => exact List.Sublist.slnil
  | cons entry entries ih =>
    rw [accepted]
    split
    · exact ih.cons_cons entry
    · exact ih.cons entry

theorem isSome_of_mem_accepted {entries : List (Entry κ α)} {e : Entry κ α} (he : e ∈ b.accepted entries) :
    e.value.isSome := by
  induction entries generalizing b with
  | nil => exact absurd he List.not_mem_nil
  | cons entry entries ih =>
    rw [accepted] at he
    split at he
    · rename_i haccepts
      rcases List.mem_cons.mp he with rfl | he
      · exact (accepts_iff.mp haccepts).2.2.2
      · exact ih he
    · exact ih he

/-- The root id of some accepted entries: the designated one or, without one, the first id of an entry without a
parent. -/
def rootIdOf (designated : Option κ) (entries : List (Entry κ α)) : Option κ :=
  designated.or (entries.findSome? fun entry => if entry.parent.isNone then entry.id else none)

omit [DecidableEq κ] in
theorem rootIdOf_rootAfter (b : TreeBuilder κ α) (entry : Entry κ α) (entries : List (Entry κ α)) :
    rootIdOf (b.rootAfter entry.parent entry.id) entries = rootIdOf b.rootId (entry :: entries) := by
  rw [rootIdOf, rootIdOf, List.findSome?_cons, rootAfter]
  cases entry.parent with
  | some p => simp
  | none =>
    cases b.rootId with
    | some k => simp
    | none => cases entry.id <;> simp

omit [DecidableEq κ] in
theorem exists_of_rootIdOf_none {entries : List (Entry κ α)} {k : κ} (h : rootIdOf none entries = some k) :
    ∃ e ∈ entries, e.id = some k ∧ e.parent = none := by
  rw [rootIdOf, Option.none_or] at h
  obtain ⟨e, he, hfound⟩ := List.exists_of_findSome?_eq_some h
  split at hfound
  · rename_i hparent
    exact ⟨e, he, hfound, Option.isNone_iff_eq_none.mp hparent⟩
  · simp at hfound

theorem rootId_offerAll (entries : List (Entry κ α)) :
    (b.offerAll entries).rootId = rootIdOf b.rootId (b.accepted entries) := by
  induction entries generalizing b with
  | nil => simp [accepted, rootIdOf]
  | cons entry entries ih =>
    rw [offerAll_cons, ih, accepted]
    cases haccepts : b.accepts entry with
    | false => rw [offer_of_not_accepts haccepts, if_neg Bool.false_ne_true]
    | true =>
      obtain ⟨value, _, hoffer⟩ := offer_of_accepts haccepts
      rw [if_pos rfl, ← rootIdOf_rootAfter, hoffer, rootId_register]

theorem value?_register (b : TreeBuilder κ α) (parent id : Option κ) (value : α) (slot : Slot κ) :
    (b.register parent id value).graph.value? slot = if slot = .id id then some value else b.graph.value? slot := by
  rw [register_eq, graph_adopt, Graph.value?_linkAll, value?_attach]
  exact Graph.value?_add b.graph _ slot _

/-- A node keeps its value, as its id is never accepted again. -/
theorem value?_offerAll_of_mem {id : Option κ} (hid : id ∈ b.declared.keys) (entries : List (Entry κ α)) :
    (b.offerAll entries).graph.value? (.id id) = b.graph.value? (.id id) := by
  induction entries generalizing b with
  | nil => rfl
  | cons entry entries ih =>
    cases haccepts : b.accepts entry with
    | false => rw [offerAll_cons, offer_of_not_accepts haccepts, ih hid]
    | true =>
      obtain ⟨_, _, hnew, _⟩ := accepts_iff.mp haccepts
      obtain ⟨value, _, hoffer⟩ := offer_of_accepts haccepts
      have hne : Slot.id id ≠ .id entry.id := fun heq => hnew (Slot.id.inj heq ▸ hid)
      have hstill : id ∈ (b.offer entry).declared.keys := by
        rw [keys_offer, if_pos haccepts]
        exact List.mem_append_left _ hid
      rw [offerAll_cons, ih hstill, hoffer, value?_register, if_neg hne]

theorem value?_offerAll (entries : List (Entry κ α)) {e : Entry κ α} (he : e ∈ b.accepted entries) :
    (b.offerAll entries).graph.value? (.id e.id) = e.value := by
  induction entries generalizing b with
  | nil => exact absurd he List.not_mem_nil
  | cons entry entries ih =>
    rw [offerAll_cons]
    rw [accepted] at he
    cases haccepts : b.accepts entry with
    | false =>
      rw [haccepts] at he
      exact ih he
    | true =>
      rw [haccepts, if_pos rfl, List.mem_cons] at he
      rcases he with rfl | he
      · obtain ⟨value, hvalue, hoffer⟩ := offer_of_accepts haccepts
        have hthere : e.id ∈ (b.offer e).declared.keys := by
          rw [keys_offer, if_pos haccepts]
          exact List.mem_append_right _ (List.mem_singleton_self _)
        rw [value?_offerAll_of_mem hthere, hoffer, value?_register, if_pos rfl, hvalue]
      · exact ih he

end TreeBuilder

end ServiceMap
