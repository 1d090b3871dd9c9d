import ServiceMap.Proofs.Tree.Ancestry
import ServiceMap.Tree.Builder

/-!
# What a builder declares

The ids that a builder has seen and the parents that count for them, read as a function from an id to the one above it
and as lists of children. A new entry adds one id at the end and changes nothing else. The search for an ancestor, which
goes a bounded number of steps, finds every ancestor there is, so an entry that closes no cycle is below none of its own.
-/

namespace ServiceMap

namespace TreeBuilder

variable {κ α : Type} [DecidableEq κ]

/-! ### What is declared -/

/-- The id above an id by what is declared. -/
def above (b : TreeBuilder κ α) (k : κ) : Option κ := b.declaredParent (some k)

/-- The ids that declare an id as their parent, in order. Null is no parent. -/
def declaredChildren (b : TreeBuilder κ α) : Option κ → List (Option κ)
  | none => []
  | some k => (b.declared.entries.filter (·.2 == some k)).map (·.1)

theorem declaredParent_of_not_mem {b : TreeBuilder κ α} {id : Option κ} (h : id ∉ b.declared.keys) :
    b.declaredParent id = none := by
  rw [declaredParent, Table.get?_eq_none_iff.mpr h, Option.getD_none]

theorem mem_keys_of_declaredParent {b : TreeBuilder κ α} {id : Option κ} {p : κ}
    (h : b.declaredParent id = some p) : id ∈ b.declared.keys := by
  by_contra hid
  simp [declaredParent_of_not_mem hid] at h

theorem mem_declaredChildren {b : TreeBuilder κ α} (hnodup : b.declared.keys.Nodup) {id : Option κ} {k : κ} :
    id ∈ b.declaredChildren (some k) ↔ b.declaredParent id = some k := by
  have hget : b.declaredParent id = some k ↔ b.declared.get? id = some (some k) := by
    rw [declaredParent]
    cases b.declared.get? id <;> simp
  rw [hget, Table.get?_eq_some_iff hnodup]
  simp [declaredChildren]

section Insert

variable {b b' : TreeBuilder κ α} {id p : Option κ} (hnew : id ∉ b.declared.keys)
  (hdeclared : b'.declared = b.declared.insert id p)
include hnew hdeclared

theorem keys_of_insert : b'.declared.keys = b.declared.keys ++ [id] := by
  rw [hdeclared, Table.keys_insert_of_not_mem hnew]

omit hnew in
theorem declaredParent_of_insert (j : Option κ) :
    b'.declaredParent j = if j = id then p else b.declaredParent j := by
  rw [declaredParent, declaredParent, hdeclared]
  split
  · rename_i h
    rw [h, Table.get?_insert_self, Option.getD_some]
  · rename_i h
    rw [Table.get?_insert_of_ne (Ne.symm h)]

theorem declaredChildren_of_insert (k : κ) :
    b'.declaredChildren (some k) = b.declaredChildren (some k) ++ if p = some k then [id] else [] := by
  simp only [declaredChildren, hdeclared, Table.entries_insert_of_not_mem hnew, List.filter_append, List.map_append]
  by_cases h : p = some k <;> simp [h]

end Insert

/-! ### Cycles -/

theorem isAncestorWithin_iff {b : TreeBuilder κ α} {id ancestor : Option κ} {steps : Nat} :
    b.isAncestorWithin id steps ancestor = true ↔
      ∃ k x n, id = some k ∧ ancestor = some x ∧ n < steps ∧ climb b.above n x = some k := by
  induction steps generalizing ancestor with
  | zero => simp [isAncestorWithin]
  | succ steps ih =>
    cases ancestor with
    | none => simp [isAncestorWithin]
    | some x =>
      have hup : (b.declared.get? (some x)).getD none = b.above x := rfl
      simp only [isAncestorWithin, hup, Bool.or_eq_true, beq_iff_eq, ih]
      constructor
      · rintro (rfl | ⟨k, y, n, rfl, hy, hlt, hclimb⟩)
        · exact ⟨x, x, 0, rfl, rfl, Nat.succ_pos _, rfl⟩
        · exact ⟨k, x, n + 1, rfl, rfl, Nat.succ_lt_succ hlt, (climb_succ_of_up hy n).trans hclimb⟩
      · rintro ⟨k, y, n, rfl, hy, hlt, hclimb⟩
        obtain rfl : x = y := Option.some.inj hy
        cases n with
        | zero => exact .inl hclimb
        | succ n =>
          obtain ⟨z, hz, hrest⟩ := Option.bind_eq_some_iff.mp hclimb
          exact .inr ⟨k, z, n, rfl, hz, Nat.lt_of_succ_lt_succ hlt, hrest⟩

def ids (b : TreeBuilder κ α) : List κ := b.declared.keys.filterMap fun id => id

theorem mem_ids_of_above {b : TreeBuilder κ α} {i j : κ} (h : b.above i = some j) : i ∈ b.ids :=
  List.mem_filterMap.mpr ⟨some i, mem_keys_of_declaredParent h, rfl⟩

omit [DecidableEq κ] in
theorem length_ids_le (b : TreeBuilder κ α) : b.ids.length ≤ b.declared.size :=
  Nat.le_trans (List.length_filterMap_le _ _) (Nat.le_of_eq b.declared.length_keys)

theorem isAncestor_of_climb {b : TreeBuilder κ α} (h : Acyclic b.above) {k x : κ} {steps : Nat}
    (hclimb : climb b.above steps x = some k) : b.isAncestor (some k) (some x) = true := by
  have hle := h.steps_le_length (fun _ _ => mem_ids_of_above) hclimb
  have hlength := b.length_ids_le
  exact isAncestorWithin_iff.mpr ⟨k, x, steps, rfl, rfl, by omega, hclimb⟩

theorem isDeclaredParent_of_declaredParent {b : TreeBuilder κ α} {id : Option κ} {p : κ}
    (h : b.declaredParent id = some p) : b.isDeclaredParent (some p) = true := by
  rw [declaredParent, Table.get?, Option.getD_eq_iff] at h
  rcases h with h | ⟨_, h⟩
  · obtain ⟨entry, hfind, hentry⟩ := Option.map_eq_some_iff.mp h
    exact List.any_eq_true.mpr ⟨entry, List.mem_of_find?_eq_some hfind, by rw [hentry, beq_self_eq_true]⟩
  · simp at h

/-- An entry that closes no cycle has a parent that is not below it. -/
theorem climb_ne_of_not_closesCycle {b : TreeBuilder κ α} (h : Acyclic b.above) {p k : κ}
    (hfits : b.closesCycle (some p) (some k) = false) (hroot : some k ≠ b.rootId) (steps : Nat) :
    climb b.above steps p ≠ some k := by
  intro hclimb
  simp only [closesCycle, Bool.or_eq_false_iff, Bool.and_eq_false_iff, beq_eq_false_iff_ne, bne_eq_false_iff_eq] at hfits
  obtain ⟨hself, (hk | hdeclared) | hancestor⟩ := hfits
  · exact hroot hk
  · cases steps with
    | zero => exact hself hclimb.symm
    | succ steps =>
      rw [climb_add steps 1, Option.bind_eq_some_iff] at hclimb
      obtain ⟨x, _, hx⟩ := hclimb
      rw [climb_one] at hx
      simp [isDeclaredParent_of_declaredParent hx] at hdeclared
  · simp [isAncestor_of_climb h hclimb] at hancestor

end TreeBuilder

end ServiceMap
