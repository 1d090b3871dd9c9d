import ServiceMap.Proofs.Tree.Offered

/-!
# Circular entries

An entry is refused if it would close a cycle, and only then. What is above an id is known from the parents that are
recorded for the ids a builder has seen; some of these parents may not have come yet. The parents form no cycle, so a
climb along them ends and the search for an ancestor is complete, whatever it is asked for. A new entry adds one edge. It
is refused just if the entry names itself, or the edge would be part of a cycle and the entry is not the root.

No parent is recorded for the root, so no entry is refused for the sake of what the root names. If the root is designated,
what it names makes no difference at all, unless it names itself.
-/

namespace ServiceMap

open Relation (TransGen ReflTransGen)

/-! ### A new edge -/

section NewEdge

variable {ν : Type} {step : ν → ν → Prop} {i j : ν}

/-- If an edge from `i` to `j` is added, it is part of a cycle. -/
def ClosesLoop (step : ν → ν → Prop) (i j : ν) : Prop := ReflTransGen (fun a c => step a c ∨ a = i ∧ c = j) j i

/-- The rest of the cycle does not need the new edge: where it is taken, the way back has already been found. -/
theorem closesLoop_iff : ClosesLoop step i j ↔ ReflTransGen step j i := by
  have key : ∀ a, ReflTransGen (fun a c => step a c ∨ a = i ∧ c = j) a i → ReflTransGen step a i := by
    intro a h
    induction h using ReflTransGen.head_induction_on with
    | refl => exact .refl
    | head hfirst _ ih =>
      rcases hfirst with hold | ⟨rfl, _⟩
      · exact .head hold ih
      · exact .refl
  exact ⟨key j, fun h => ReflTransGen.mono (fun _ _ => Or.inl) j i h⟩

theorem exists_climb_iff_reflTransGen {up : ν → Option ν} :
    (∃ steps, climb up steps i = some j) ↔ ReflTransGen (fun a c => up a = some c) i j := by
  rw [Relation.reflTransGen_iff_eq_or_transGen, ← exists_climb_iff_transGen]
  constructor
  · rintro ⟨steps, hclimb⟩
    cases steps with
    | zero => exact .inl (Option.some.inj hclimb).symm
    | succ steps => exact .inr ⟨steps + 1, Nat.succ_pos steps, hclimb⟩
  · rintro (rfl | ⟨steps, _, hclimb⟩)
    · exact ⟨0, rfl⟩
    · exact ⟨steps, hclimb⟩

end NewEdge

namespace TreeBuilder

variable {κ α : Type} [DecidableEq κ] {b : TreeBuilder κ α}

/-- The id has come, and this parent is recorded for it. -/
def Records (b : TreeBuilder κ α) (k p : κ) : Prop := b.declared.get? (some k) = some (some p)

theorem records_eq (b : TreeBuilder κ α) : b.Records = fun k p => b.above k = some p := by
  funext k p
  rw [Records, above, declaredParent]
  cases b.declared.get? (some k) <;> simp

/-- Adding the entry is no error, and it does not fit. -/
def Refuses (b : TreeBuilder κ α) (entry : Entry κ α) : Prop :=
  ∃ addition, b.add entry = .ok addition ∧ addition.fits = false

theorem refuses_iff_closesCycle (hbuilt : b.built = false) {entry : Entry κ α} :
    b.Refuses entry ↔ b.closesCycle entry.parent entry.id = true := by
  rw [Refuses]
  rcases add_cases b entry with ⟨hfinished, _⟩ | ⟨_, hcloses, hadd⟩ | ⟨_, hfits, _, hadd⟩ | ⟨_, hfits, _, _, hadd⟩ |
    ⟨_, hfits, _, _, _, hadd⟩
  · simp [hbuilt] at hfinished
  · simp [hadd, hcloses]
  · simp [hadd, hfits]
  · simp [hadd, hfits]
  · simp [hadd, hfits]

namespace Linked

variable (h : b.Linked)
include h

theorem not_transGen_records (k : κ) : ¬TransGen b.Records k k := by
  rw [records_eq, ← exists_climb_iff_transGen]
  rintro ⟨steps, hpos, hclimb⟩
  exact h.acyclic k steps hpos hclimb

theorem steps_le_size {steps : Nat} {k p : κ} (hclimb : climb b.above steps k = some p) : steps ≤ b.declared.size :=
  Nat.le_trans (h.acyclic.steps_le_length (fun _ _ => mem_ids_of_above) hclimb) b.length_ids_le

theorem climb_ends (k : κ) : climb b.above (b.declared.size + 1) k = none := by
  rw [Option.eq_none_iff_forall_ne_some]
  intro p hclimb
  have := h.steps_le_size hclimb
  omega

/-- The search finds every ancestor, however far up it stands. -/
theorem isAncestorWithin_iff_reflTransGen {id ancestor : Option κ} {steps : Nat} (hsteps : b.declared.size < steps) :
    b.isAncestorWithin id steps ancestor = true ↔
      ∃ k p, id = some k ∧ ancestor = some p ∧ ReflTransGen b.Records p k := by
  rw [isAncestorWithin_iff, records_eq]
  refine exists_congr fun k => exists_congr fun p => ?_
  rw [← exists_climb_iff_reflTransGen]
  constructor
  · rintro ⟨n, hid, hancestor, _, hclimb⟩
    exact ⟨hid, hancestor, n, hclimb⟩
  · rintro ⟨hid, hancestor, n, hclimb⟩
    exact ⟨n, hid, hancestor, Nat.lt_of_le_of_lt (h.steps_le_size hclimb) hsteps, hclimb⟩

theorem isAncestorWithin_add (id ancestor : Option κ) (more : Nat) :
    b.isAncestorWithin id (b.declared.size + 1 + more) ancestor = b.isAncestor id ancestor := by
  rw [Bool.eq_iff_iff, isAncestor, h.isAncestorWithin_iff_reflTransGen (by omega),
    h.isAncestorWithin_iff_reflTransGen (Nat.lt_succ_self _)]

theorem closesCycle_iff {parent id : Option κ} : b.closesCycle parent id = true ↔
    id = parent ∨ id ≠ b.rootId ∧ ∃ k p, id = some k ∧ parent = some p ∧ ClosesLoop b.Records k p := by
  simp only [closesLoop_iff]
  rw [closesCycle, Bool.or_eq_true, Bool.and_eq_true, Bool.and_eq_true, beq_iff_eq, bne_iff_ne, isAncestor,
    h.isAncestorWithin_iff_reflTransGen (Nat.lt_succ_self _)]
  constructor
  · rintro (hself | ⟨⟨hroot, _⟩, hancestor⟩)
    · exact .inl hself
    · exact .inr ⟨hroot, hancestor⟩
  · rintro (hself | ⟨hroot, k, p, rfl, rfl, hpath⟩)
    · exact .inl hself
    · -- Unless the path is empty, its last step ends at the id, so the id is the declared parent of some node.
      rcases Relation.ReflTransGen.cases_tail hpath with rfl | ⟨x, _, hlast⟩
      · exact .inl rfl
      · rw [records_eq] at hlast
        exact .inr ⟨⟨hroot, isDeclaredParent_of_declaredParent hlast⟩, k, p, rfl, rfl, hpath⟩

end Linked

/-! ### What a designated root names -/

/-- A designated root is added in the same way whatever it names, unless it names itself. -/
theorem add_designated {r p : κ} (hroot : b.rootId = some r) (hne : p ≠ r) (value : Option α) :
    b.add ⟨some p, some r, value⟩ = b.add ⟨none, some r, value⟩ := by
  have hfits : b.closesCycle (some p) (some r) = b.closesCycle none (some r) := by
    simp [closesCycle, hroot, Ne.symm hne]
  have hregister : ∀ v, b.register (some p) (some r) v = b.register none (some r) v := by
    intro v
    simp only [register, hroot, Option.isNone_some, Bool.and_false, Bool.false_eq_true, if_false, if_pos]
  simp only [add, hfits, hregister]

/-! ### Every builder -/

/-- The recorded parents form no cycle, climbs and searches along them end, and just those entries are refused that name
themselves, or that are not the root and would close a cycle. -/
structure RefusesCycles (b : TreeBuilder κ α) : Prop where
  acyclic : ∀ k, ¬TransGen b.Records k k
  climb_ends : ∀ k, climb b.above (b.declared.size + 1) k = none
  search_ends : ∀ id ancestor more,
    b.isAncestorWithin id (b.declared.size + 1 + more) ancestor = b.isAncestor id ancestor
  refuses_iff : ∀ entry, b.Refuses entry ↔ entry.id = entry.parent ∨ entry.id ≠ b.rootId ∧
    ∃ k p, entry.id = some k ∧ entry.parent = some p ∧ ClosesLoop b.Records k p
  not_records_root : ∀ r p, b.rootId = some r → ¬b.Records r p

theorem Linked.refusesCycles (h : b.Linked) (hbuilt : b.built = false) : b.RefusesCycles where
  acyclic := h.not_transGen_records
  climb_ends := h.climb_ends
  search_ends := h.isAncestorWithin_add
  refuses_iff _ := (refuses_iff_closesCycle hbuilt).trans h.closesCycle_iff
  not_records_root r p hroot := by
    have htop : b.above r = none := by rw [above, ← hroot, h.declaredParent_root]
    simp [records_eq, htop]

/-- Whatever was offered to a builder, it refuses circular entries and no others. A designated root stays the root; it is
never refused, and what it names makes no difference, unless it names itself. -/
theorem offerAll_refusesCycles (traceId : String) (rootId : Option κ) (entries : List (Entry κ α)) :
    ∃ b : TreeBuilder κ α, start (some traceId) rootId = .ok b ∧ (b.offerAll entries).RefusesCycles ∧
      ∀ r, rootId = some r → (b.offerAll entries).rootId = some r ∧ ∀ p value, p ≠ r →
        ¬(b.offerAll entries).Refuses ⟨some p, some r, value⟩ ∧
          (b.offerAll entries).add ⟨some p, some r, value⟩ = (b.offerAll entries).add ⟨none, some r, value⟩ := by
  refine ⟨⟨traceId, rootId, {}, .empty, .empty, false⟩, rfl, ?_⟩
  generalize hb : (⟨traceId, rootId, {}, .empty, .empty, false⟩ : TreeBuilder κ α) = b
  have hlinked : (b.offerAll entries).Linked := hb ▸ (Linked.start traceId rootId).offerAll entries
  have hcycles := hlinked.refusesCycles (by rw [built_offerAll, ← hb])
  refine ⟨hcycles, fun r hr => ?_⟩
  have hroot : (b.offerAll entries).rootId = some r := by rw [rootId_offerAll, ← hb, hr, rootIdOf, Option.some_or]
  refine ⟨hroot, fun p value hne => ⟨?_, add_designated hroot hne value⟩⟩
  rw [hcycles.refuses_iff]
  rintro (hself | ⟨hother, _⟩)
  · exact hne (Option.some.inj hself).symm
  · exact hother hroot.symm

/-- Entries that lead up from `a` to `c`, which has not come. If it names `a`, it is refused, unless it is the root. -/
example :
    let b (designated : Option String) : TreeBuilder String Nat :=
      (⟨"t", designated, {}, .empty, .empty, false⟩ : TreeBuilder String Nat).offerAll
        [⟨some "b", some "a", some 1⟩, ⟨some "c", some "b", some 2⟩]
    ((b none).accepts ⟨some "a", some "c", some 3⟩, (b (some "c")).accepts ⟨some "a", some "c", some 3⟩) =
      (false, true) := by
  decide

end TreeBuilder

end ServiceMap
