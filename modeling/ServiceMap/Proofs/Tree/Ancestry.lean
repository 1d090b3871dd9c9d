import Mathlib.Data.List.Nodup
import Mathlib.Data.List.Perm.Subperm
import Mathlib.Logic.Relation

/-!
# Climbing

Nodes that know at most one node above them, given as a function. Climbing goes up a number of steps, and the nodes are
acyclic if no climb leads back to where it began. If only finitely many nodes know one above them, a climb without a
cycle is not longer than there are such nodes, so a bounded search finds every ancestor and every node has a topmost
one.
-/

namespace ServiceMap

variable {ν : Type}

/-- The node some steps above a node, if the climb gets that far. -/
def climb (up : ν → Option ν) : (steps : Nat) → ν → Option ν
  | 0, i => some i
  | steps + 1, i => (up i).bind (climb up steps)

/-- No climb leads back to where it began. -/
def Acyclic (up : ν → Option ν) : Prop := ∀ i steps, 0 < steps → climb up steps i ≠ some i

variable {up : ν → Option ν}

@[simp] theorem climb_zero (i : ν) : climb up 0 i = some i := rfl

theorem climb_succ (steps : Nat) (i : ν) : climb up (steps + 1) i = (up i).bind (climb up steps) := rfl

@[simp] theorem climb_one (i : ν) : climb up 1 i = up i := by
  cases h : up i <;> simp [climb, h]

theorem climb_succ_of_up {i j : ν} (h : up i = some j) (steps : Nat) :
    climb up (steps + 1) i = climb up steps j := by
  rw [climb_succ, h, Option.bind_some]

theorem climb_add (m n : Nat) (i : ν) : climb up (m + n) i = (climb up m i).bind (climb up n) := by
  induction m generalizing i with
  | zero => simp
  | succ m ih =>
    rw [Nat.succ_add, climb_succ, climb_succ, Option.bind_assoc]
    congr 1
    funext j
    exact ih j

/-- A climb can be left at every step. -/
theorem exists_climb_of_le {m n : Nat} (hle : m ≤ n) {i j : ν} (h : climb up n i = some j) :
    ∃ k, climb up m i = some k ∧ climb up (n - m) k = some j := by
  rw [← Nat.add_sub_cancel' hle, climb_add, Option.bind_eq_some_iff] at h
  exact h

/-- All climbs from a node that get to a topmost one are of one length. -/
theorem climb_length_unique {m n : Nat} {i j k : ν} (hj : climb up m i = some j) (hjtop : up j = none)
    (hk : climb up n i = some k) (hktop : up k = none) : m = n := by
  have key : ∀ {m n : Nat} {j k : ν}, climb up m i = some j → up j = none → climb up n i = some k → n ≤ m := by
    intro m n j k hj hjtop hk
    by_contra hlt
    obtain ⟨j', hj', hrest⟩ := exists_climb_of_le (Nat.le_of_not_le hlt) hk
    obtain rfl : j = j' := Option.some.inj (hj.symm.trans hj')
    obtain ⟨rest, hsteps⟩ : ∃ rest, n - m = rest + 1 := ⟨n - m - 1, by omega⟩
    rw [hsteps, climb_succ, hjtop] at hrest
    simp at hrest
  exact Nat.le_antisymm (key hk hktop hj) (key hj hjtop hk)

/-! ### Without cycles -/

namespace Acyclic

/-- The nodes on a climb are all different. -/
theorem climb_injective (h : Acyclic up) {i : ν} {m n : Nat} {j : ν} (hm : climb up m i = some j)
    (hn : climb up n i = some j) : m = n := by
  have key : ∀ {m n : Nat}, climb up m i = some j → climb up n i = some j → ¬m < n := by
    intro m n hm hn hlt
    obtain ⟨k, hk, hrest⟩ := exists_climb_of_le (Nat.le_of_lt hlt) hn
    obtain rfl : j = k := Option.some.inj (hm.symm.trans hk)
    exact h j (n - m) (by omega) hrest
  have := key hm hn
  have := key hn hm
  omega

/-- Without a cycle there are at least as many nodes that know one above them as a climb has steps. -/
theorem steps_le_length (h : Acyclic up) {support : List ν} (hsupport : ∀ i j, up i = some j → i ∈ support)
    {steps : Nat} {i j : ν} (hclimb : climb up steps i = some j) : steps ≤ support.length := by
  have hmem : ∀ n, ∃ k, n < steps → climb up n i = some k ∧ k ∈ support := by
    intro n
    by_cases hlt : n < steps
    · obtain ⟨k, hk, hrest⟩ := exists_climb_of_le (Nat.le_of_lt hlt) hclimb
      obtain ⟨rest, hsteps⟩ : ∃ rest, steps - n = rest + 1 := ⟨steps - n - 1, by omega⟩
      rw [hsteps, climb_succ, Option.bind_eq_some_iff] at hrest
      obtain ⟨next, hnext, _⟩ := hrest
      exact ⟨k, fun _ => ⟨hk, hsupport k next hnext⟩⟩
    · exact ⟨i, fun hn => absurd hn hlt⟩
  choose node hnode using hmem
  have hnodup : ((List.range steps).map node).Nodup := by
    refine List.Nodup.map_on (fun m hm n hn heq => ?_) List.nodup_range
    have hm' := (hnode m (List.mem_range.mp hm)).1
    have hn' := (hnode n (List.mem_range.mp hn)).1
    exact h.climb_injective hm' (heq ▸ hn')
  have hsubset : (List.range steps).map node ⊆ support := by
    intro k hk
    obtain ⟨n, hn, rfl⟩ := List.mem_map.mp hk
    exact (hnode n (List.mem_range.mp hn)).2
  simpa using (List.subperm_of_subset hnodup hsubset).length_le

/-- Where climbs end, what passes on from the node above holds of every node. -/
theorem induction_on (h : Acyclic up) {support : List ν} (hsupport : ∀ i j, up i = some j → i ∈ support)
    {motive : ν → Prop} (step : ∀ i, (∀ j, up i = some j → motive j) → motive i) (i : ν) : motive i := by
  have key : ∀ steps i, climb up steps i = none → motive i := by
    intro steps
    induction steps with
    | zero => intro i hi; simp at hi
    | succ steps ih =>
      intro i hi
      refine step i fun j hj => ih j ?_
      rwa [climb_succ_of_up hj] at hi
  apply key (support.length + 1) i
  by_contra hne
  obtain ⟨j, hj⟩ := Option.ne_none_iff_exists'.mp hne
  have := h.steps_le_length hsupport hj
  omega

/-- A new node above one that had none closes no cycle if it is not below that one. -/
theorem extend [DecidableEq ν] (h : Acyclic up) {c p : ν} (hnew : up c = none)
    (hfree : ∀ steps, climb up steps p ≠ some c) : Acyclic fun i => if i = c then some p else up i := by
  -- Up to the first visit to `c`, a climb with the new edge is one without it.
  have key : ∀ steps i j, climb (fun i => if i = c then some p else up i) steps i = some j →
      climb up steps i = some j ∨ ∃ m n, climb up m i = some c ∧ climb up n p = some j := by
    intro steps
    induction steps with
    | zero => exact fun i j hclimb => .inl hclimb
    | succ steps ih =>
      intro i j hclimb
      rw [climb_succ, Option.bind_eq_some_iff] at hclimb
      obtain ⟨k, hk, hrest⟩ := hclimb
      by_cases hi : i = c
      · rw [if_pos hi, Option.some.injEq] at hk
        subst hk hi
        rcases ih p j hrest with hold | ⟨m, n, hm, _⟩
        · exact .inr ⟨0, steps, rfl, hold⟩
        · exact absurd hm (hfree m)
      · rw [if_neg hi] at hk
        rcases ih k j hrest with hold | ⟨m, n, hm, hn⟩
        · exact .inl ((climb_succ_of_up hk steps).trans hold)
        · exact .inr ⟨m + 1, n, (climb_succ_of_up hk m).trans hm, hn⟩
  intro i steps hpos hclimb
  rcases key steps i i hclimb with hold | ⟨m, n, hm, hn⟩
  · exact h i steps hpos hold
  · apply hfree (n + m)
    rw [climb_add, hn, Option.bind_some, hm]

end Acyclic

/-- Nodes that all climb to one topmost node are acyclic. -/
theorem acyclic_of_climb_top {top : ν} (htop : up top = none)
    (hclimb : ∀ i j, up i = some j → ∃ steps, climb up steps i = some top) : Acyclic up := by
  intro i steps hpos hloop
  obtain ⟨rest, rfl⟩ : ∃ rest, steps = rest + 1 := ⟨steps - 1, by omega⟩
  obtain ⟨j, hj, _⟩ := Option.bind_eq_some_iff.mp hloop
  obtain ⟨n, hn⟩ := hclimb i j hj
  have hlong : climb up (rest + 1 + n) i = some top := by rw [climb_add, hloop, Option.bind_some, hn]
  have := climb_length_unique hn htop hlong htop
  omega

theorem exists_climb_iff_transGen {i j : ν} :
    (∃ steps, 0 < steps ∧ climb up steps i = some j) ↔ Relation.TransGen (fun a b => up a = some b) i j := by
  constructor
  · rintro ⟨steps, hpos, hclimb⟩
    obtain ⟨rest, rfl⟩ : ∃ rest, steps = rest + 1 := ⟨steps - 1, by omega⟩
    clear hpos
    induction rest generalizing i with
    | zero => exact .single (by rwa [Nat.zero_add, climb_one] at hclimb)
    | succ rest ih =>
      obtain ⟨k, hk, hrest⟩ := Option.bind_eq_some_iff.mp hclimb
      exact .head hk (ih hrest)
  · intro h
    induction h with
    | single hab => exact ⟨1, Nat.one_pos, by rw [climb_one, hab]⟩
    | tail _ hbc ih =>
      obtain ⟨steps, _, hclimb⟩ := ih
      exact ⟨steps + 1, Nat.succ_pos _, by rw [climb_add, hclimb, Option.bind_some, climb_one, hbc]⟩

/-- Where each step leads to a lower rank, no steps lead back to where they began. -/
theorem not_transGen_self_of_rank {step : ν → ν → Prop} (rank : ν → Nat) (h : ∀ i j, step i j → rank j < rank i)
    (i : ν) : ¬Relation.TransGen step i i := by
  intro hcycle
  have hlower : Relation.TransGen (· > ·) (rank i) (rank i) := hcycle.lift rank h
  rw [Relation.transGen_eq_self] at hlower
  exact Nat.lt_irrefl _ hlower

end ServiceMap
