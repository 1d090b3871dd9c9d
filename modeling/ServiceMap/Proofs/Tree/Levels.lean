import ServiceMap.Proofs.Tree.Ancestry
import ServiceMap.Tree.Graph

/-!
# Levels

Breadth-first order is the order by levels: first the node where the walk begins, then its children, then theirs, each
level from left to right. This holds of every graph as long as the walk goes on. If the node and what is below it are a
tree, no level repeats a node, the levels end, and the walk visits each node of the tree once and then stops. If all nodes
of a graph climb to one root and stand among the children of the node above them, the whole graph is such a tree.
-/

namespace ServiceMap

variable {ι α : Type} [DecidableEq ι]

namespace Graph

/-- The nodes some steps below a node, from left to right. -/
def level (g : Graph ι α) (root : ι) : (depth : Nat) → List ι
  | 0 => [root]
  | depth + 1 => (g.level root depth).flatMap g.children

/-- The nodes less than some steps below a node, level by level. -/
def levels (g : Graph ι α) (root : ι) (depth : Nat) : List ι := (List.range depth).flatMap (g.level root)

theorem levels_succ (g : Graph ι α) (root : ι) (depth : Nat) :
    g.levels root (depth + 1) = g.levels root depth ++ g.level root depth := by
  simp [levels, List.range_succ]

end Graph

namespace Walk

variable {g : Graph ι α}

@[simp] theorem upcoming_mk_none (queue : List ι) : (⟨queue, none⟩ : Walk ι).upcoming g = queue := by
  simp [upcoming]

@[simp] theorem upcoming_mk_some (queue : List ι) (i : ι) :
    (⟨queue, some i⟩ : Walk ι).upcoming g = queue ++ g.children i := by
  simp [upcoming]

theorem take_of_upcoming_nil {w : Walk ι} (h : w.upcoming g = []) (count : Nat) : w.take g count = [] := by
  cases count with
  | zero => rfl
  | succ count => simp [take, next, h]

theorem take_of_upcoming_cons {w : Walk ι} {i : ι} {rest : List ι} (h : w.upcoming g = i :: rest) (count : Nat) :
    w.take g (count + 1) = i :: (⟨rest, some i⟩ : Walk ι).take g count := by
  simp [take, next, h]

theorem take_congr {w w' : Walk ι} (h : w.upcoming g = w'.upcoming g) (count : Nat) :
    w.take g count = w'.take g count := by
  cases count with
  | zero => rfl
  | succ count =>
    cases hw : w.upcoming g with
    | nil => rw [take_of_upcoming_nil hw, take_of_upcoming_nil (h ▸ hw)]
    | cons i rest => rw [take_of_upcoming_cons hw, take_of_upcoming_cons (h ▸ hw)]

/-- A walk visits what is in front and is then left with the rest and the children of what it visited. -/
theorem take_append {w : Walk ι} {front back : List ι} (h : w.upcoming g = front ++ back) (count : Nat) :
    w.take g (front.length + count) =
      front ++ (⟨back ++ front.flatMap g.children, none⟩ : Walk ι).take g count := by
  induction front generalizing w back with
  | nil =>
    rw [List.length_nil, Nat.zero_add, List.nil_append]
    exact take_congr (by simpa using h) count
  | cons i front ih =>
    rw [List.cons_append] at h
    have hrest : (⟨front ++ back, some i⟩ : Walk ι).upcoming g = front ++ (back ++ g.children i) := by simp
    rw [List.length_cons, Nat.add_right_comm, take_of_upcoming_cons h, ih hrest, List.flatMap_cons,
      List.cons_append, List.append_assoc]

theorem take_start (g : Graph ι α) (root : ι) (depth count : Nat) :
    (start root).take g ((g.levels root depth).length + count) =
      g.levels root depth ++ (⟨g.level root depth, none⟩ : Walk ι).take g count := by
  induction depth generalizing count with
  | zero => simp [Graph.levels, Graph.level, start]
  | succ depth ih =>
    have hlevel : (⟨g.level root depth, none⟩ : Walk ι).upcoming g = g.level root depth ++ [] := by simp
    rw [Graph.levels_succ, List.length_append, Nat.add_assoc, ih, take_append hlevel, List.nil_append,
      List.append_assoc]
    rfl

end Walk

namespace Graph

/-! ### The tree below a node -/

/-- A node is another one or below it: children lead from that one to it. -/
def Reaches (g : Graph ι α) (root i : ι) : Prop := Relation.ReflTransGen (fun p c => c ∈ g.children p) root i

/-- A node and all below it are a tree: the node is a child of none of them, and each other one is a child of one of them,
once. Whatever else the graph holds does not matter. -/
structure IsTreeFrom (g : Graph ι α) (root : ι) : Prop where
  root_not_mem : ∀ {p}, g.Reaches root p → root ∉ g.children p
  children_nodup : ∀ {p}, g.Reaches root p → (g.children p).Nodup
  parent_unique : ∀ {p q c}, g.Reaches root p → g.Reaches root q → c ∈ g.children p → c ∈ g.children q → p = q

theorem reaches_iff_exists_level {g : Graph ι α} {root i : ι} : g.Reaches root i ↔ ∃ depth, i ∈ g.level root depth := by
  constructor
  · intro h
    induction h with
    | refl => exact ⟨0, List.mem_singleton_self root⟩
    | tail _ hc ih =>
      obtain ⟨depth, hp⟩ := ih
      exact ⟨depth + 1, List.mem_flatMap.mpr ⟨_, hp, hc⟩⟩
  · rintro ⟨depth, hi⟩
    induction depth generalizing i with
    | zero => exact List.mem_singleton.mp hi ▸ .refl
    | succ depth ih =>
      obtain ⟨p, hp, hc⟩ := List.mem_flatMap.mp hi
      exact (ih hp).tail hc

theorem reaches_of_mem_level {g : Graph ι α} {root i : ι} {depth : Nat} (h : i ∈ g.level root depth) :
    g.Reaches root i :=
  reaches_iff_exists_level.mpr ⟨depth, h⟩

theorem mem_keys_of_mem_children {g : Graph ι α} {c p : ι} (h : c ∈ g.children p) : p ∈ g.nodes.keys := by
  by_contra hp
  simp [children_of_not_mem hp] at h

omit [DecidableEq ι] in
theorem length_le_size {g : Graph ι α} {l : List ι} (hnodup : l.Nodup) (hsubset : l ⊆ g.nodes.keys) :
    l.length ≤ g.size := by
  rw [← g.length_keys]
  exact (List.subperm_of_subset hnodup hsubset).length_le

/-- Above a level that is not empty, every level has a node with children. -/
theorem depth_le_length_of_level_ne_nil {g : Graph ι α} {root : ι} {depth : Nat} (h : g.level root depth ≠ []) :
    depth ≤ ((g.levels root depth).filter (· ∈ g.nodes.keys)).length := by
  induction depth with
  | zero => exact Nat.zero_le _
  | succ depth ih =>
    obtain ⟨i, hi⟩ := List.exists_mem_of_ne_nil _ h
    obtain ⟨p, hp, hc⟩ := List.mem_flatMap.mp hi
    have habove := ih (List.ne_nil_of_mem hp)
    have hkey : p ∈ (g.level root depth).filter (· ∈ g.nodes.keys) :=
      List.mem_filter.mpr ⟨hp, decide_eq_true (mem_keys_of_mem_children hc)⟩
    have hpos := List.length_pos_of_mem hkey
    rw [levels_succ, List.filter_append, List.length_append]
    omega

namespace IsTreeFrom

variable {g : Graph ι α} {root : ι} (h : g.IsTreeFrom root)
include h

/-- A node stands on one level only: its parents on two levels are the same, and theirs, up to the root. -/
theorem level_unique {depth depth' : Nat} {i : ι} (hi : i ∈ g.level root depth) (hi' : i ∈ g.level root depth') :
    depth = depth' := by
  induction depth generalizing depth' i with
  | zero =>
    obtain rfl := List.mem_singleton.mp hi
    cases depth' with
    | zero => rfl
    | succ depth' =>
      obtain ⟨p, hp, hc⟩ := List.mem_flatMap.mp hi'
      exact absurd hc (h.root_not_mem (reaches_of_mem_level hp))
  | succ depth ih =>
    obtain ⟨p, hp, hc⟩ := List.mem_flatMap.mp hi
    cases depth' with
    | zero =>
      obtain rfl := List.mem_singleton.mp hi'
      exact absurd hc (h.root_not_mem (reaches_of_mem_level hp))
    | succ depth' =>
      obtain ⟨q, hq, hc'⟩ := List.mem_flatMap.mp hi'
      obtain rfl := h.parent_unique (reaches_of_mem_level hp) (reaches_of_mem_level hq) hc hc'
      rw [ih hp hq]

theorem level_nodup (depth : Nat) : (g.level root depth).Nodup := by
  induction depth with
  | zero => exact List.nodup_singleton root
  | succ depth ih =>
    refine List.nodup_flatMap.mpr ⟨fun p hp => h.children_nodup (reaches_of_mem_level hp), ?_⟩
    refine ih.imp_of_mem fun {p q} hp hq hne c hcp hcq => ?_
    exact hne (h.parent_unique (reaches_of_mem_level hp) (reaches_of_mem_level hq) hcp hcq)

theorem levels_nodup (depth : Nat) : (g.levels root depth).Nodup := by
  refine List.nodup_flatMap.mpr ⟨fun d _ => h.level_nodup d, List.nodup_range.imp fun {d e} hne => ?_⟩
  exact fun i hd he => hne (h.level_unique hd he)

theorem depth_le_size {depth : Nat} (hlevel : g.level root depth ≠ []) : depth ≤ g.size := by
  have hsubset : (g.levels root depth).filter (· ∈ g.nodes.keys) ⊆ g.nodes.keys := by
    intro i hi
    simpa using (List.mem_filter.mp hi).2
  calc depth
    _ ≤ ((g.levels root depth).filter (· ∈ g.nodes.keys)).length := depth_le_length_of_level_ne_nil hlevel
    _ ≤ g.size := length_le_size ((h.levels_nodup depth).filter _) hsubset

theorem level_eq_nil {depth : Nat} (hdepth : g.size < depth) : g.level root depth = [] := by
  by_contra hlevel
  have := h.depth_le_size hlevel
  omega

theorem mem_levels_iff {i : ι} : i ∈ g.levels root (g.size + 1) ↔ g.Reaches root i := by
  rw [reaches_iff_exists_level]
  simp only [levels, List.mem_flatMap, List.mem_range]
  constructor
  · rintro ⟨depth, _, hi⟩
    exact ⟨depth, hi⟩
  · rintro ⟨depth, hi⟩
    exact ⟨depth, Nat.lt_succ_of_le (h.depth_le_size (List.ne_nil_of_mem hi)), hi⟩

theorem take_start (more : Nat) : (Walk.start root).take g ((g.levels root (g.size + 1)).length + more) =
    g.levels root (g.size + 1) := by
  rw [Walk.take_start, h.level_eq_nil (Nat.lt_succ_self _), Walk.take_of_upcoming_nil (Walk.upcoming_mk_none []),
    List.append_nil]

/-- A walk from the root of a tree visits one level after the other, each from left to right, and with them all nodes of
the tree, each once; then it ends. If all of them are in the graph, this is the breadth-first order. -/
theorem walk_visits_levels : ∃ height, (∀ depth, height ≤ depth → g.level root depth = []) ∧
    (∀ more, (Walk.start root).take g ((g.levels root height).length + more) = g.levels root height) ∧
    (g.levels root height).Nodup ∧ (∀ i, i ∈ g.levels root height ↔ g.Reaches root i) ∧
    ((∀ i, g.Reaches root i → i ∈ g.nodes.keys) → g.breadthFirst root = g.levels root height) := by
  refine ⟨g.size + 1, fun depth hdepth => h.level_eq_nil hdepth, h.take_start, h.levels_nodup _,
    fun i => h.mem_levels_iff, fun hkeys => ?_⟩
  have hsubset : g.levels root (g.size + 1) ⊆ g.nodes.keys := fun i hi => hkeys i (h.mem_levels_iff.mp hi)
  have hle := length_le_size (h.levels_nodup _) hsubset
  have htake := h.take_start (g.size - (g.levels root (g.size + 1)).length)
  rwa [Nat.add_sub_cancel' hle] at htake

end IsTreeFrom

/-- For a tree it is enough to look at the nodes that are there. -/
theorem isTreeFrom_of_keys {g : Graph ι α} {root : ι}
    (hroot : ∀ p ∈ g.nodes.keys, root ∉ g.children p ∧ (g.children p).Nodup)
    (hunique : ∀ p ∈ g.nodes.keys, ∀ q ∈ g.nodes.keys, ∀ c ∈ g.children p, c ∈ g.children q → p = q) :
    g.IsTreeFrom root where
  root_not_mem {p} _ hmem := (hroot p (mem_keys_of_mem_children hmem)).1 hmem
  children_nodup {p} _ := by
    by_cases hp : p ∈ g.nodes.keys
    · exact (hroot p hp).2
    · rw [children_of_not_mem hp]
      exact List.nodup_nil
  parent_unique _ _ hp hq :=
    hunique _ (mem_keys_of_mem_children hp) _ (mem_keys_of_mem_children hq) _ hp hq

/-- Seven nodes under the first of them, in branches of different height. -/
def unevenTree : Graph Nat Unit :=
  let nodes := (List.range 7).foldl (fun g i => g.add i none) ({} : Graph Nat Unit)
  [(0, 1), (0, 2), (2, 3), (2, 4), (1, 5), (4, 6)].foldl (fun g (p, c) => g.link p c) nodes

theorem isTreeFrom_unevenTree : unevenTree.IsTreeFrom 0 := isTreeFrom_of_keys (by decide) (by decide)

theorem walk_visits_levels_unevenTree : unevenTree.IsTreeFrom 0 ∧
    ∃ height, (∀ depth, height ≤ depth → unevenTree.level 0 depth = []) ∧
      (∀ more, (Walk.start 0).take unevenTree ((unevenTree.levels 0 height).length + more) =
        unevenTree.levels 0 height) ∧
      (unevenTree.levels 0 height).Nodup ∧ (∀ i, i ∈ unevenTree.levels 0 height ↔ unevenTree.Reaches 0 i) ∧
      ((∀ i, unevenTree.Reaches 0 i → i ∈ unevenTree.nodes.keys) →
        unevenTree.breadthFirst 0 = unevenTree.levels 0 height) :=
  ⟨isTreeFrom_unevenTree, isTreeFrom_unevenTree.walk_visits_levels⟩

example : (unevenTree.breadthFirst 0, unevenTree.levels 0 8) = ([0, 1, 2, 5, 3, 4, 6], [0, 1, 2, 5, 3, 4, 6]) := by
  decide

/-! ### The tree of all nodes -/

/-- The nodes of a graph are a tree under a root: a node stands among the children of another one, and there once, just
if that one is its parent, and from every node a climb gets to the root, which has no parent. -/
structure IsTree (g : Graph ι α) (root : ι) : Prop where
  keys_nodup : g.nodes.keys.Nodup
  root_mem : root ∈ g.nodes.keys
  parent?_root : g.parent? root = none
  mem_children_iff : ∀ {p c}, c ∈ g.children p ↔ g.parent? c = some p
  children_nodup : ∀ p, (g.children p).Nodup
  exists_climb : ∀ i ∈ g.nodes.keys, ∃ steps, climb g.parent? steps i = some root

theorem mem_keys_of_parent? {g : Graph ι α} {c p : ι} (h : g.parent? c = some p) : c ∈ g.nodes.keys := by
  by_contra hc
  simp [parent?_of_not_mem hc] at h

namespace IsTree

variable {g : Graph ι α} {root : ι} (h : g.IsTree root)
include h

theorem acyclic : Acyclic g.parent? :=
  acyclic_of_climb_top h.parent?_root fun _ _ hup => h.exists_climb _ (mem_keys_of_parent? hup)

theorem mem_keys_of_climb {steps : Nat} {i : ι} (hclimb : climb g.parent? steps i = some root) :
    i ∈ g.nodes.keys := by
  cases steps with
  | zero => exact Option.some.inj hclimb ▸ h.root_mem
  | succ steps =>
    obtain ⟨j, hj, _⟩ := Option.bind_eq_some_iff.mp hclimb
    exact mem_keys_of_parent? hj

/-- A node stands on the level that its climb to the root is long. -/
theorem mem_level_iff {depth : Nat} {i : ι} : i ∈ g.level root depth ↔ climb g.parent? depth i = some root := by
  induction depth generalizing i with
  | zero => simp [level]
  | succ depth ih =>
    simp only [level, List.mem_flatMap, ih, h.mem_children_iff, climb_succ, Option.bind_eq_some_iff]
    exact ⟨fun ⟨p, hp, hi⟩ => ⟨p, hi, hp⟩, fun ⟨p, hi, hp⟩ => ⟨p, hp, hi⟩⟩

theorem isTreeFrom : g.IsTreeFrom root where
  root_not_mem _ hroot := by simpa [h.parent?_root] using h.mem_children_iff.mp hroot
  children_nodup {p} _ := h.children_nodup p
  parent_unique _ _ hp hq := Option.some.inj ((h.mem_children_iff.mp hp).symm.trans (h.mem_children_iff.mp hq))

/-- A climb to the root passes the other nodes at most. -/
theorem depth_lt_size {depth : Nat} {i : ι} (hclimb : climb g.parent? depth i = some root) : depth < g.size := by
  have hsupport : ∀ i j, g.parent? i = some j → i ∈ g.nodes.keys.erase root := by
    intro i j hup
    refine (List.mem_erase_of_ne ?_).mpr (mem_keys_of_parent? hup)
    rintro rfl
    simp [h.parent?_root] at hup
  have hle := h.acyclic.steps_le_length hsupport hclimb
  have hpos := List.length_pos_of_mem h.root_mem
  rw [List.length_erase_of_mem h.root_mem, g.length_keys] at hle
  rw [g.length_keys] at hpos
  omega

theorem levels_perm : (g.levels root g.size).Perm g.nodes.keys := by
  apply (List.perm_ext_iff_of_nodup (h.isTreeFrom.levels_nodup _) h.keys_nodup).mpr
  intro i
  simp only [levels, List.mem_flatMap, List.mem_range, h.mem_level_iff]
  constructor
  · rintro ⟨_, _, hclimb⟩
    exact h.mem_keys_of_climb hclimb
  · intro hi
    obtain ⟨steps, hclimb⟩ := h.exists_climb i hi
    exact ⟨steps, h.depth_lt_size hclimb, hclimb⟩

/-- A walk from the root visits the levels of the tree and then ends. -/
theorem take_start_eq_levels (more : Nat) :
    (Walk.start root).take g (g.size + more) = g.levels root g.size := by
  have hlength : (g.levels root g.size).length = g.size := by
    rw [h.levels_perm.length_eq, g.length_keys]
  have hend : g.level root g.size = [] := by
    apply List.eq_nil_iff_forall_not_mem.mpr
    intro i hi
    have := h.depth_lt_size (h.mem_level_iff.mp hi)
    omega
  have htake := Walk.take_start g root g.size more
  rwa [hlength, hend, Walk.take_of_upcoming_nil (Walk.upcoming_mk_none []), List.append_nil] at htake

theorem breadthFirst_eq_levels : g.breadthFirst root = g.levels root g.size :=
  h.take_start_eq_levels 0

theorem breadthFirst_perm : (g.breadthFirst root).Perm g.nodes.keys :=
  h.breadthFirst_eq_levels ▸ h.levels_perm

end IsTree

end Graph

end ServiceMap
