import ServiceMap.Proofs.Tree.Consistent

/-!
# Repeated ids

Of several entries with one id the first counts. If the first ones are consistent, a builder accepts just these, whatever
the others say: an entry whose id has come is passed over or refused, and either way the builder stays as it is. So what
is known of consistent entries holds of all entries whose first ones are consistent.
-/

namespace ServiceMap

open Relation (TransGen)

namespace Entry

variable {κ α : Type} [DecidableEq κ]

/-- The first of the entries with each id, in order. -/
def firsts : List (Entry κ α) → List (Entry κ α)
  | [] => []
  | e :: entries => e :: (firsts entries).filter fun other => other.id ≠ e.id

theorem mem_firsts_cons {e first : Entry κ α} {entries : List (Entry κ α)} :
    e ∈ firsts (first :: entries) ↔ e = first ∨ e ∈ firsts entries ∧ e.id ≠ first.id := by
  simp [firsts]

theorem nodup_ids_firsts (entries : List (Entry κ α)) : ((firsts entries).map (·.id)).Nodup := by
  induction entries with
  | nil => exact List.nodup_nil
  | cons first entries ih =>
    rw [firsts, List.map_cons, List.nodup_cons]
    refine ⟨?_, ih.sublist (List.filter_sublist.map _)⟩
    simp

/-- An entry is the first with its id if the search for the id finds it. -/
theorem mem_firsts_iff {e : Entry κ α} {entries : List (Entry κ α)} :
    e ∈ firsts entries ↔ entries.find? (·.id == e.id) = some e := by
  induction entries with
  | nil => simp [firsts]
  | cons first entries ih =>
    rw [mem_firsts_cons, ih]
    by_cases hid : first.id = e.id
    · rw [List.find?_cons_of_pos (by simpa using hid)]
      simp [hid, eq_comm]
    · have hne : e ≠ first := fun heq => hid (congrArg Entry.id heq).symm
      rw [List.find?_cons_of_neg (by simpa using hid)]
      simp [hne, Ne.symm hid]

end Entry

namespace TreeBuilder

variable {κ α : Type} [DecidableEq κ] {b : TreeBuilder κ α}

/-- What is not accepted makes no difference. -/
theorem offerAll_accepted (entries : List (Entry κ α)) : b.offerAll (b.accepted entries) = b.offerAll entries := by
  induction entries generalizing b with
  | nil => rfl
  | cons entry entries ih =>
    rw [accepted, offerAll_cons]
    cases haccepts : b.accepts entry with
    | false => rw [offer_of_not_accepts haccepts, if_neg Bool.false_ne_true, ih]
    | true => rw [if_pos rfl, offerAll_cons, ih]

/-- Where the first entries with new ids, and what is declared already, name no id above itself, just these entries are
accepted. -/
theorem accepted_eq_filter_firsts {names : κ → κ → Prop} (hacyclic : ∀ k, ¬TransGen names k k) (hbuilt : b.built = false)
    (habove : ∀ k p, b.above k = some p → names k p) {entries : List (Entry κ α)}
    (hfirsts : ∀ e ∈ Entry.firsts entries, e.id ∉ b.declared.keys →
      e.value.isSome ∧ ∃ k, e.id = some k ∧ ∀ p, e.parent = some p → names k p) :
    b.accepted entries = (Entry.firsts entries).filter (·.id ∉ b.declared.keys) := by
  induction entries generalizing b with
  | nil => rfl
  | cons e entries ih =>
    rw [accepted, Entry.firsts]
    by_cases hid : e.id ∈ b.declared.keys
    · have hrefused : b.accepts e = false := by
        rw [← Bool.not_eq_true, accepts_iff]
        exact fun haccepts => haccepts.2.2.1 hid
      have hrest : b.accepted entries = (Entry.firsts entries).filter (·.id ∉ b.declared.keys) := by
        refine ih hbuilt habove fun f hf hnew => hfirsts f (Entry.mem_firsts_cons.mpr (.inr ⟨hf, ?_⟩)) hnew
        exact fun heq => hnew (heq ▸ hid)
      rw [hrefused, if_neg Bool.false_ne_true, offer_of_not_accepts hrefused, hrest,
        List.filter_cons_of_neg (by simpa using hid), List.filter_filter]
      refine List.filter_congr fun f _ => ?_
      by_cases hf : f.id = e.id
      · simp [hf, hid]
      · simp [hf]
    · obtain ⟨hvalue, k, hk, hparent⟩ := hfirsts e (Entry.mem_firsts_cons.mpr (.inl rfl)) hid
      have hself : e.parent ≠ some k := fun heq => hacyclic k (.single (hparent k heq))
      have haccepts : b.accepts e = true :=
        accepts_iff.mpr ⟨hbuilt, hk ▸ closesCycle_eq_false habove hacyclic hself fun _ => hparent, hid, hvalue⟩
      obtain ⟨value, _, hoffer⟩ := offer_of_accepts haccepts
      have hkeys : (b.offer e).declared.keys = b.declared.keys ++ [e.id] := by rw [keys_offer, if_pos haccepts]
      have habove' : ∀ j p, (b.offer e).above j = some p → names j p := by
        intro j p hup
        rw [hoffer, above, declaredParent_register] at hup
        split at hup
        · rename_i hj
          obtain rfl : j = k := Option.some.inj (hj.trans hk)
          exact hparent p (parentAfter_of_some hup).1
        · exact habove j p hup
      have hrest : (b.offer e).accepted entries =
          (Entry.firsts entries).filter (·.id ∉ (b.offer e).declared.keys) := by
        refine ih (built_offer.trans hbuilt) habove' fun f hf hnew => ?_
        simp only [hkeys, List.mem_append, List.mem_singleton, not_or] at hnew
        exact hfirsts f (Entry.mem_firsts_cons.mpr (.inr ⟨hf, hnew.2⟩)) hnew.1
      rw [haccepts, if_pos rfl, hrest, List.filter_cons_of_pos (by simpa using hid), List.filter_filter]
      refine congrArg _ (List.filter_congr fun f _ => ?_)
      simp [hkeys]

end TreeBuilder

namespace Entry.Consistent

open TreeBuilder

variable {κ α : Type} [DecidableEq κ] {entries : List (Entry κ α)} (h : Consistent (firsts entries)) (traceId : String)
include h

theorem accepted_eq_firsts :
    (⟨traceId, none, {}, .empty, .empty, false⟩ : TreeBuilder κ α).accepted entries = firsts entries := by
  rw [accepted_eq_filter_firsts h.acyclic rfl]
  · exact List.filter_eq_self.mpr fun e _ => by simp [Table.keys, Table.empty]
  · intro k p hup
    simp [above, declaredParent, Table.get?, Table.empty] at hup
  · intro e he _
    obtain ⟨k, hk⟩ := Option.isSome_iff_exists.mp (h.id_isSome e he)
    exact ⟨h.value_isSome e he, k, hk, fun p hp => ⟨e, he, hk, hp⟩⟩

/-- All entries make the same builder as the first ones alone. -/
theorem filled_firsts : filledUnder none traceId (firsts entries) = filledUnder none traceId entries := by
  rw [filledUnder, filledUnder, ← h.accepted_eq_firsts traceId, offerAll_accepted]

end Entry.Consistent

end ServiceMap
