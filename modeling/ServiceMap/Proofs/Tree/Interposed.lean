import ServiceMap.Proofs.Tree.Renamed

/-!
# Nodes between a node and its parent

A new node may take the place of a node among the children of its parent, with that node as its only child. What was a
tree stays one: it has one more node, everything below the new node is one level further down, and a search among
ancestors that finds nothing at the new node finds what it found before.
-/

namespace ServiceMap

namespace Graph

variable {ι α : Type} [DecidableEq ι]

/-- The graph in which a new node has taken the place of a node among the children of its parent and has that node as its
only child. -/
def interpose (g : Graph ι α) (parent child new : ι) (value : Option α) : Graph ι α :=
  (((g.add new value).modify parent fun node =>
      { node with children := node.children.map fun c => if c = child then new else c }).modify child fun node =>
    { node with parent := some new }).modify new fun node =>
  { node with children := [child], parent := some parent }

/-- The graph in which new nodes stand between a node and its parent, each as the only child of the one before. -/
def interposeAll (g : Graph ι α) (parent child : ι) : List (ι × Option α) → Graph ι α
  | [] => g
  | (new, value) :: rest => (g.interpose parent child new value).interposeAll new child rest

/-! ### Ancestors in a tree -/

theorem ancestorsUpTo_of_parent? {g : Graph ι α} {i p : ι} (h : g.parent? i = some p) (steps : Nat) :
    g.ancestorsUpTo (steps + 1) i = p :: g.ancestorsUpTo steps p := by
  rw [ancestorsUpTo, h]

theorem ancestorsUpTo_of_no_parent {g : Graph ι α} {i : ι} (h : g.parent? i = none) (steps : Nat) :
    g.ancestorsUpTo steps i = [] := by
  cases steps with
  | zero => rfl
  | succ steps => rw [ancestorsUpTo, h]

/-- More steps than lead to the top find no more ancestors. -/
theorem ancestorsUpTo_add_of_climb {g : Graph ι α} {depth : Nat} {i top : ι}
    (hclimb : climb g.parent? depth i = some top) (htop : g.parent? top = none) (more : Nat) :
    g.ancestorsUpTo (depth + more) i = g.ancestorsUpTo depth i := by
  induction depth generalizing i with
  | zero =>
    obtain rfl : i = top := Option.some.inj hclimb
    rw [ancestorsUpTo_of_no_parent htop, ancestorsUpTo_of_no_parent htop]
  | succ depth ih =>
    obtain ⟨p, hp, hrest⟩ := Option.bind_eq_some_iff.mp hclimb
    rw [Nat.add_right_comm, ancestorsUpTo_of_parent? hp, ancestorsUpTo_of_parent? hp, ih hrest]

namespace IsTree

variable {g : Graph ι α} {root : ι} (h : g.IsTree root)
include h

/-- The ancestors of a node are its parent and the ancestors of that one. -/
theorem ancestors_of_parent? {i p : ι} (hp : g.parent? i = some p) : g.ancestors i = p :: g.ancestors p := by
  obtain ⟨depth, hclimb⟩ := h.exists_climb p (h.mem_keys_of_parent? hp)
  have hlong : depth + 1 < g.size := h.depth_lt_size ((climb_succ_of_up hp depth).trans hclimb)
  obtain ⟨more, hsize⟩ : ∃ more, g.size = depth + more + 1 := ⟨g.size - depth - 1, by omega⟩
  rw [ancestors, ancestors, hsize, ancestorsUpTo_of_parent? hp, Nat.add_assoc,
    ancestorsUpTo_add_of_climb hclimb h.parent?_root, ancestorsUpTo_add_of_climb hclimb h.parent?_root]

/-- What holds of a node if it holds of its parent, if any, holds of every node. -/
theorem induction_on_parent {motive : ι → Prop} (step : ∀ i, (∀ p, g.parent? i = some p → motive p) → motive i)
    (i : ι) : motive i :=
  h.acyclic.induction_on (fun _ _ => Graph.mem_keys_of_parent?) step i

end IsTree

/-! ### What the new node changes -/

section Interpose

variable (g : Graph ι α) (parent child new : ι) (value : Option α)

theorem value?_interpose (i : ι) :
    (g.interpose parent child new value).value? i = if i = new then value else g.value? i := by
  simp only [value?, interpose, node_modify, node_add]
  grind

theorem parent?_interpose (i : ι) : (g.interpose parent child new value).parent? i =
    if i = new then some parent else if i = child then some new else g.parent? i := by
  simp only [parent?, interpose, node_modify, node_add]
  grind

theorem parent?_interpose_new : (g.interpose parent child new value).parent? new = some parent := by
  rw [parent?_interpose, if_pos rfl]

variable {g parent child new} in
theorem parent?_interpose_child (hparent : g.parent? child = some parent) (hnew : new ∉ g.nodes.keys) :
    (g.interpose parent child new value).parent? child = some new := by
  have hne : child ≠ new := fun heq => hnew (heq ▸ mem_keys_of_parent? hparent)
  rw [parent?_interpose, if_neg hne, if_pos rfl]

variable {g parent child new} in
theorem parent?_interpose_of_ne {i : ι} (hnew : i ≠ new) (hchild : i ≠ child) :
    (g.interpose parent child new value).parent? i = g.parent? i := by
  rw [parent?_interpose, if_neg hnew, if_neg hchild]

theorem children_interpose (i : ι) : (g.interpose parent child new value).children i =
    if i = new then [child]
    else if i = parent then (g.children i).map fun c => if c = child then new else c
    else g.children i := by
  simp only [children, interpose, node_modify, node_add]
  grind

theorem keys_interpose (hparent : parent ∈ g.nodes.keys) (hchild : child ∈ g.nodes.keys) (hnew : new ∉ g.nodes.keys) :
    (g.interpose parent child new value).nodes.keys = g.nodes.keys ++ [new] := by
  have hadd : (g.add new value).nodes.keys = g.nodes.keys ++ [new] := keys_add_of_not_mem hnew value
  simp only [interpose, modify, Table.keys_alter, hadd]
  simp [hparent, hchild]

theorem isEmpty_children_interpose {i : ι} (hi : i ≠ new) :
    ((g.interpose parent child new value).children i).isEmpty = (g.children i).isEmpty := by
  rw [children_interpose, if_neg hi]
  split
  · rw [List.isEmpty_map]
  · rfl

end Interpose

namespace IsTree

variable {g : Graph ι α} {root parent child new : ι} (h : g.IsTree root) (hparent : g.parent? child = some parent)
  (hnew : new ∉ g.nodes.keys) (value : Option α)
include h hparent hnew

/-- The same nodes climb to the root: those below the new node with one step more. -/
theorem exists_climb_interpose (depth : Nat) {i : ι} (hi : i ∈ g.nodes.keys)
    (hclimb : climb g.parent? depth i = some root) :
    ∃ steps, climb (g.interpose parent child new value).parent? steps i = some root := by
  induction depth generalizing i with
  | zero => exact ⟨0, hclimb⟩
  | succ depth ih =>
    obtain ⟨p, hp, hrest⟩ := Option.bind_eq_some_iff.mp hclimb
    obtain ⟨steps, hsteps⟩ := ih (h.mem_keys_of_parent? hp) hrest
    have hne : i ≠ new := fun heq => hnew (heq ▸ hi)
    by_cases hc : i = child
    · -- Here the climb gets longer: it passes the new node before it comes to the parent.
      obtain rfl : p = parent := Option.some.inj (hp.symm.trans (hc ▸ hparent))
      subst hc
      exact ⟨steps + 2, by
        rw [climb_succ_of_up (parent?_interpose_child value hparent hnew), climb_succ_of_up (parent?_interpose_new ..),
          hsteps]⟩
    · have hup : (g.interpose parent child new value).parent? i = some p :=
        (parent?_interpose_of_ne value hne hc).trans hp
      exact ⟨steps + 1, by rw [climb_succ_of_up hup, hsteps]⟩

theorem mem_children_interpose {p c : ι} : c ∈ (g.interpose parent child new value).children p ↔
    (g.interpose parent child new value).parent? c = some p := by
  have hnewparent : g.parent? new = none := parent?_of_not_mem hnew
  have hchildnew : child ≠ new := fun heq => hnew (heq ▸ Graph.mem_keys_of_parent? hparent)
  have hparentnew : parent ≠ new := fun heq => hnew (heq ▸ h.mem_keys_of_parent? hparent)
  rw [children_interpose, parent?_interpose]
  -- The children of just two nodes are others than before: those of the new one and those of the parent.
  by_cases hp : p = new
  · have hbelow : g.parent? c ≠ some new := fun hc => hnew (h.mem_keys_of_parent? hc)
    rw [if_pos hp, List.mem_singleton, hp]
    grind
  · rw [if_neg hp]
    by_cases hpparent : p = parent
    · rw [if_pos hpparent, List.mem_map]
      simp only [h.mem_children_iff]
      grind
    · rw [if_neg hpparent, h.mem_children_iff]
      grind

omit hparent in
theorem nodup_children_interpose (p : ι) : ((g.interpose parent child new value).children p).Nodup := by
  rw [children_interpose]
  split
  · exact List.nodup_singleton child
  · split
    · have hout : new ∉ g.children p := fun hmem => hnew (Graph.mem_keys_of_parent? (h.mem_children_iff.mp hmem))
      refine (h.children_nodup p).map_on fun c hc d hd heq => ?_
      grind
    · exact h.children_nodup p

theorem interpose : (g.interpose parent child new value).IsTree root := by
  have hparentkey : parent ∈ g.nodes.keys := h.mem_keys_of_parent? hparent
  have hkeys := keys_interpose g parent child new value hparentkey (Graph.mem_keys_of_parent? hparent) hnew
  have hrootnew : root ≠ new := fun heq => hnew (heq ▸ h.root_mem)
  have hrootchild : root ≠ child := by
    rintro rfl
    simp [h.parent?_root] at hparent
  refine ⟨?_, ?_, ?_, h.mem_children_interpose hparent hnew value, h.nodup_children_interpose hnew value, ?_⟩
  · rw [hkeys]
    simpa using h.keys_nodup.concat hnew
  · rw [hkeys]
    exact List.mem_append_left _ h.root_mem
  · exact (parent?_interpose_of_ne value hrootnew hrootchild).trans h.parent?_root
  · intro i hi
    rw [hkeys, List.mem_append, List.mem_singleton] at hi
    rcases hi with hi | rfl
    · obtain ⟨depth, hclimb⟩ := h.exists_climb i hi
      exact h.exists_climb_interpose hparent hnew value depth hi hclimb
    · obtain ⟨depth, hclimb⟩ := h.exists_climb parent hparentkey
      obtain ⟨steps, hsteps⟩ := h.exists_climb_interpose hparent hnew value depth hparentkey hclimb
      exact ⟨steps + 1, by rw [climb_succ_of_up (parent?_interpose_new ..), hsteps]⟩

/-- A search among ancestors that finds nothing at the new node finds what it found before. -/
theorem findSome?_ancestors_interpose {β : Type} {find : ι → Option β} (hfind : find new = none) {i : ι}
    (hi : i ≠ new) : ((g.interpose parent child new value).ancestors i).findSome? find =
      (g.ancestors i).findSome? find := by
  have h' := h.interpose hparent hnew value
  induction i using h.induction_on_parent with
  | step i ih =>
    cases hp : g.parent? i with
    | none =>
      have hchild : i ≠ child := by
        rintro rfl
        simp [hparent] at hp
      have hp' : (g.interpose parent child new value).parent? i = none :=
        (parent?_interpose_of_ne value hi hchild).trans hp
      rw [ancestors, ancestors, ancestorsUpTo_of_no_parent hp, ancestorsUpTo_of_no_parent hp']
    | some p =>
      have hpnew : p ≠ new := fun heq => hnew (heq ▸ h.mem_keys_of_parent? hp)
      rw [h.ancestors_of_parent? hp, List.findSome?_cons]
      by_cases hchild : i = child
      · obtain rfl : p = parent := Option.some.inj (hp.symm.trans (hchild ▸ hparent))
        subst hchild
        rw [h'.ancestors_of_parent? (parent?_interpose_child value hparent hnew),
          h'.ancestors_of_parent? (parent?_interpose_new ..), List.findSome?_cons, hfind, List.findSome?_cons,
          ih p hp hpnew]
      · have hp' : (g.interpose parent child new value).parent? i = some p :=
          (parent?_interpose_of_ne value hi hchild).trans hp
        rw [h'.ancestors_of_parent? hp', List.findSome?_cons, ih p hp hpnew]

end IsTree

/-! ### Any number of new nodes -/

/-- The nodes are different ones and not in the graph. -/
structure AreNew (g : Graph ι α) (news : List (ι × Option α)) : Prop where
  nodup : (news.map (·.1)).Nodup
  not_mem : ∀ new ∈ news, new.1 ∉ g.nodes.keys

/-- When the first of some new nodes stands in its place, the rest are still new. -/
theorem AreNew.interpose {g : Graph ι α} {root parent child new : ι} {value : Option α} {rest : List (ι × Option α)}
    (hnew : g.AreNew ((new, value) :: rest)) (h : g.IsTree root) (hparent : g.parent? child = some parent) :
    (g.interpose parent child new value).AreNew rest := by
  have hout : new ∉ g.nodes.keys := hnew.not_mem _ List.mem_cons_self
  obtain ⟨hfirst, hrest⟩ := List.nodup_cons.mp hnew.nodup
  refine ⟨hrest, fun other hother hmem => ?_⟩
  rw [keys_interpose g parent child new value (h.mem_keys_of_parent? hparent) (mem_keys_of_parent? hparent) hout,
    List.mem_append, List.mem_singleton] at hmem
  rcases hmem with hold | heq
  · exact hnew.not_mem other (List.mem_cons_of_mem _ hother) hold
  · exact hfirst (List.mem_map.mpr ⟨other, hother, heq⟩)

theorem IsTree.interposeAll {g : Graph ι α} {root parent child : ι} (h : g.IsTree root)
    (hparent : g.parent? child = some parent) {news : List (ι × Option α)} (hnew : g.AreNew news) :
    (g.interposeAll parent child news).IsTree root := by
  induction news generalizing g parent with
  | nil => exact h
  | cons first rest ih =>
    obtain ⟨new, value⟩ := first
    have hout : new ∉ g.nodes.keys := hnew.not_mem _ List.mem_cons_self
    exact ih (h.interpose hparent hout value) (parent?_interpose_child value hparent hout) (hnew.interpose h hparent)

end Graph

end ServiceMap
