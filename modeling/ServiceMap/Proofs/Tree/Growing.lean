import ServiceMap.Proofs.Tree.Levels

/-!
# Walks in a growing graph

A walk may be left and taken up again while nodes get children. It looks at the children of a node when it goes on from the
node, so what it visits depends on when it does that. But if no node gets a child after the walk has gone on from it, then
the walk is one in the graph as it is in the end. If each new child was a child of none and is not above its new parent, the
graph stays a forest: what is below a node is a tree, and the walk visits its levels. Walks do not matter to each other.
-/

namespace ServiceMap

variable {ι α : Type} [DecidableEq ι]

/-! ### Forests -/

namespace Graph

/-- Each node is a child of one node at most, and there once, and leads to no node above it: the nodes are those of some
trees. -/
structure IsForest (g : Graph ι α) : Prop where
  children_nodup : ∀ p, (g.children p).Nodup
  parent_unique : ∀ {p q c}, c ∈ g.children p → c ∈ g.children q → p = q
  not_reaches_parent : ∀ {p c}, c ∈ g.children p → ¬g.Reaches c p

/-- A node that is a child of none so far may become one of another node, which must not be below it. -/
structure IsFresh (g : Graph ι α) (parent child : ι) : Prop where
  not_mem_children : ∀ p, child ∉ g.children p
  not_reaches : ¬g.Reaches child parent

variable {g : Graph ι α} {parent child : ι}

theorem IsFresh.ne (h : g.IsFresh parent child) : child ≠ parent := by
  rintro rfl
  exact h.not_reaches .refl

theorem mem_children_link {p c : ι} :
    c ∈ (g.link parent child).children p ↔ c ∈ g.children p ∨ p = parent ∧ c = child := by
  rw [children_link]
  split
  · rename_i h
    simp [h]
  · rename_i h
    simp [h]

/-- A way to a node either was there before or leads over the new child. -/
theorem reaches_of_link {i j : ι} (h : (g.link parent child).Reaches i j) :
    g.Reaches i j ∨ g.Reaches i parent ∧ g.Reaches child j := by
  induction h with
  | refl => exact .inl .refl
  | tail _ hstep ih =>
    rcases mem_children_link.mp hstep with hold | ⟨rfl, rfl⟩
    · exact ih.imp (·.tail hold) fun ⟨hup, hdown⟩ => ⟨hup, hdown.tail hold⟩
    · exact .inr ⟨ih.elim id (·.1), .refl⟩

theorem IsForest.link (h : g.IsForest) (hfresh : g.IsFresh parent child) : (g.link parent child).IsForest where
  children_nodup p := by
    rw [children_link]
    split
    · rw [← List.concat_eq_append]
      exact (h.children_nodup parent).concat (hfresh.not_mem_children parent)
    · exact h.children_nodup p
  parent_unique {p q c} hp hq := by
    rcases mem_children_link.mp hp with hold | ⟨hnew, hc⟩ <;> rcases mem_children_link.mp hq with hold' | ⟨hnew', hc'⟩
    · exact h.parent_unique hold hold'
    · exact absurd (hc' ▸ hold) (hfresh.not_mem_children p)
    · exact absurd (hc ▸ hold') (hfresh.not_mem_children q)
    · exact hnew.trans hnew'.symm
  not_reaches_parent {p c} hc hreaches := by
    rcases mem_children_link.mp hc with hold | ⟨rfl, rfl⟩
    · rcases reaches_of_link hreaches with hloop | ⟨hup, hdown⟩
      · exact h.not_reaches_parent hold hloop
      · exact hfresh.not_reaches ((hdown.tail hold).trans hup)
    · exact hfresh.not_reaches ((reaches_of_link hreaches).elim id (·.1))

theorem IsForest.isTreeFrom (h : g.IsForest) (root : ι) : g.IsTreeFrom root where
  root_not_mem hreaches hmem := h.not_reaches_parent hmem hreaches
  children_nodup {p} _ := h.children_nodup p
  parent_unique _ _ := h.parent_unique

/-- What children inherit holds of all that is below. -/
theorem mem_of_reaches {P : ι → Prop} {i j : ι} (hclosed : ∀ p, P p → ∀ c ∈ g.children p, P c) (hi : P i)
    (h : g.Reaches i j) : P j := by
  induction h with
  | refl => exact hi
  | tail _ hc ih => exact hclosed _ ih _ hc

/-- For a forest it is enough to look at the nodes that are there, given that ranks go up from a node to its children. -/
theorem isForest_of_rank (rank : ι → Nat)
    (hchildren : ∀ p ∈ g.nodes.keys, (g.children p).Nodup ∧ ∀ c ∈ g.children p, rank p < rank c)
    (hunique : ∀ p ∈ g.nodes.keys, ∀ q ∈ g.nodes.keys, ∀ c ∈ g.children p, c ∈ g.children q → p = q) :
    g.IsForest where
  children_nodup p := by
    by_cases hp : p ∈ g.nodes.keys
    · exact (hchildren p hp).1
    · rw [children_of_not_mem hp]
      exact List.nodup_nil
  parent_unique hp hq := hunique _ (mem_keys_of_mem_children hp) _ (mem_keys_of_mem_children hq) _ hp hq
  not_reaches_parent {p c} hc hreaches := by
    have hrank : ∀ {p c}, c ∈ g.children p → rank p < rank c :=
      fun hc => (hchildren _ (mem_keys_of_mem_children hc)).2 _ hc
    have hle : rank c ≤ rank p :=
      mem_of_reaches (P := fun i => rank c ≤ rank i) (fun _ hp _ hc => Nat.le_trans hp (Nat.le_of_lt (hrank hc)))
        (Nat.le_refl (rank c)) hreaches
    exact Nat.not_lt.mpr hle (hrank hc)

theorem isFresh_of_keys (below : List ι) (hkeys : ∀ p ∈ g.nodes.keys, child ∉ g.children p) (hchild : child ∈ below)
    (hbelow : ∀ p ∈ below, ∀ c ∈ g.children p, c ∈ below) (hparent : parent ∉ below) : g.IsFresh parent child where
  not_mem_children p hmem := hkeys p (mem_keys_of_mem_children hmem) hmem
  not_reaches h := hparent (mem_of_reaches hbelow hchild h)

end Graph

/-! ### Tours -/

/-- A walk under way, with the nodes that it has visited and those that it has gone on from. -/
structure Tour (ι : Type) where
  walk : Walk ι
  visited : List ι := []
  expanded : List ι := []

namespace Tour

def start (i : ι) : Tour ι := { walk := .start i }

def next (g : Graph ι α) (t : Tour ι) : Tour ι where
  walk := (t.walk.next g).2
  visited := t.visited ++ (t.walk.next g).1.toList
  expanded := t.expanded ++ t.walk.last.toList

/-- The tour is one in this graph, from the node on. -/
inductive Follows (g : Graph ι α) (i : ι) : Tour ι → Prop where
  | start : Follows g i (start i)
  | next {t : Tour ι} (h : Follows g i t) : Follows g i (t.next g)

variable {g g' : Graph ι α} {i : ι} {t : Tour ι}

/-- A step depends on the children of the node that the tour goes on from. -/
theorem next_congr (h : ∀ j ∈ (t.next g).expanded, g'.children j = g.children j) : t.next g' = t.next g := by
  have hupcoming : t.walk.upcoming g' = t.walk.upcoming g := by
    cases hlast : t.walk.last with
    | none => simp [Walk.upcoming, hlast]
    | some j =>
      have hj := h j (by simp [next, hlast])
      simp [Walk.upcoming, hlast, hj]
  simp only [next, Walk.next, hupcoming]

/-- Where a tour has not been yet does not matter. -/
theorem Follows.congr (ht : Follows g i t) (h : ∀ j ∈ t.expanded, g'.children j = g.children j) :
    Follows g' i t := by
  induction ht with
  | start => exact .start
  | next _ ih =>
    rw [← next_congr h]
    exact (ih fun j hj => h j (List.mem_append_left _ hj)).next

theorem Follows.link {parent child : ι} (ht : Follows g i t) (h : parent ∉ t.expanded) :
    Follows (g.link parent child) i t := by
  apply ht.congr
  intro j hj
  rw [Graph.children_link, if_neg]
  rintro rfl
  exact h hj

theorem visited_next_append_take (g : Graph ι α) (t : Tour ι) (count : Nat) :
    (t.next g).visited ++ (t.next g).walk.take g count = t.visited ++ t.walk.take g (count + 1) := by
  cases hupcoming : t.walk.upcoming g with
  | nil =>
    have hend : (⟨[], none⟩ : Walk ι).take g count = [] := Walk.take_of_upcoming_nil (Walk.upcoming_mk_none []) count
    simp [next, Walk.take, Walk.next, hupcoming, hend]
  | cons j rest => simp [next, Walk.take, Walk.next, hupcoming]

/-- What a tour has visited and will visit is what a walk from its start does. -/
theorem Follows.exists_take (ht : Follows g i t) :
    ∃ steps, ∀ count, t.visited ++ t.walk.take g count = (Walk.start i).take g (steps + count) := by
  induction ht with
  | start => exact ⟨0, fun count => by rw [Nat.zero_add]; rfl⟩
  | @next t _ ih =>
    obtain ⟨steps, hsteps⟩ := ih
    refine ⟨steps + 1, fun count => ?_⟩
    rw [visited_next_append_take, hsteps, Nat.add_right_comm, Nat.add_assoc]

end Tour

/-! ### Scenes -/

/-- A graph in which several walks are under way. -/
structure Scene (τ ι : Type) where
  graph : Graph ι Json
  tours : τ → Tour ι

/-- What may happen: one of the walks goes on, or a node gets a child. -/
inductive Scene.Step (τ ι : Type) where
  | next (walker : τ)
  | addChild (parent child : ι)

namespace Scene

variable {τ : Type} [DecidableEq τ]

/-- The scene in which all walks are about to begin. A walk looks at nothing before its first step, so one that begins
later may as well stand here from the first. -/
def start (g : Graph ι Json) (starts : τ → ι) : Scene τ ι := ⟨g, fun walker => .start (starts walker)⟩

def advance (s : Scene τ ι) (walker : τ) : Scene τ ι :=
  { s with tours := Function.update s.tours walker ((s.tours walker).next s.graph) }

@[simp] theorem graph_advance (s : Scene τ ι) (walker : τ) : (s.advance walker).graph = s.graph := rfl

theorem tours_advance (s : Scene τ ι) (walker other : τ) :
    (s.advance walker).tours other = if other = walker then (s.tours walker).next s.graph else s.tours other :=
  Function.update_apply ..

def step (s : Scene τ ι) : Step τ ι → Except Failure (Scene τ ι)
  | .next walker => .ok (s.advance walker)
  | .addChild parent child => do return { s with graph := ← s.graph.addChild parent child }

def run (s : Scene τ ι) : List (Step τ ι) → Except Failure (Scene τ ι)
  | [] => .ok s
  | step :: steps => do (← s.step step).run steps

/-- Whenever a child is added, the condition holds of the scene at that moment, the parent and the child. -/
def EachAddition (P : Scene τ ι → ι → ι → Prop) : Scene τ ι → List (Step τ ι) → Prop
  | _, [] => True
  | s, .next walker :: steps => EachAddition P (s.advance walker) steps
  | s, .addChild parent child :: steps =>
    P s parent child ∧ EachAddition P { s with graph := s.graph.link parent child } steps

/-- New children are fresh. -/
def AddsFresh (s : Scene τ ι) (steps : List (Step τ ι)) : Prop :=
  s.EachAddition (fun s parent child => s.graph.IsFresh parent child) steps

/-- No node gets a child that a walk has gone on from. -/
def Spares (s : Scene τ ι) (walker : τ) (steps : List (Step τ ι)) : Prop :=
  s.EachAddition (fun s parent _ => parent ∉ (s.tours walker).expanded) steps

/-- The step may matter to a walk: it is one of its own, or changes the graph. -/
def Step.concerns (walker : τ) : Step τ ι → Bool
  | .next other => other = walker
  | .addChild _ _ => true

variable {s s' : Scene τ ι} {steps : List (Step τ ι)}

/-- What every step preserves, given what holds of its addition, holds after all of them. -/
theorem run_preserves {P : Scene τ ι → Prop} {Q : Scene τ ι → ι → ι → Prop}
    (hnext : ∀ s walker, P s → P (s.advance walker))
    (hadd : ∀ s parent child, Q s parent child → P s → P { s with graph := s.graph.link parent child })
    (hQ : s.EachAddition Q steps) (hrun : s.run steps = .ok s') (hs : P s) : P s' := by
  induction steps generalizing s with
  | nil => exact Except.ok.inj hrun ▸ hs
  | cons step steps ih =>
    cases step with
    | next walker => exact ih hQ hrun (hnext s walker hs)
    | addChild parent child =>
      rw [run, step, Graph.addChild] at hrun
      split at hrun
      · cases hrun
      · exact ih hQ.2 hrun (hadd s parent child hQ.1 hs)

theorem step_addChild {parent child : ι} (h : child ≠ parent) :
    s.step (.addChild parent child) = .ok { s with graph := s.graph.link parent child } := by
  rw [step, Graph.addChild, if_neg h]
  rfl

/-- A fresh child is never refused. -/
theorem exists_run_of_addsFresh (h : s.AddsFresh steps) : ∃ s', s.run steps = .ok s' := by
  induction steps generalizing s with
  | nil => exact ⟨s, rfl⟩
  | cons step steps ih =>
    cases step with
    | next walker => exact ih h
    | addChild parent child =>
      rw [run, step_addChild h.1.ne]
      exact ih h.2

theorem isForest_of_run (hforest : s.graph.IsForest) (hfresh : s.AddsFresh steps) (hrun : s.run steps = .ok s') :
    s'.graph.IsForest :=
  run_preserves (P := fun s => s.graph.IsForest) (fun _ _ h => h) (fun _ _ _ hfresh h => h.link hfresh) hfresh hrun
    hforest

theorem follows_of_run {walker : τ} {i : ι} (hfollows : (s.tours walker).Follows s.graph i)
    (hspared : s.Spares walker steps) (hrun : s.run steps = .ok s') : (s'.tours walker).Follows s'.graph i := by
  refine run_preserves (P := fun s => (s.tours walker).Follows s.graph i) (fun s other h => ?_)
    (fun s parent child hspared h => h.link hspared) hspared hrun hfollows
  rw [tours_advance, graph_advance]
  split
  · rename_i heq
    exact heq ▸ h.next
  · exact h

/-- A walk sees the graph and its own tour. -/
theorem run_filter_concerns (walker : τ) {u : Scene τ ι} (hgraph : u.graph = s.graph)
    (htour : u.tours walker = s.tours walker) (hrun : s.run steps = .ok s') :
    ∃ u', u.run (steps.filter (·.concerns walker)) = .ok u' ∧ u'.graph = s'.graph ∧
      u'.tours walker = s'.tours walker := by
  induction steps generalizing s u with
  | nil => exact ⟨u, rfl, Except.ok.inj hrun ▸ hgraph, Except.ok.inj hrun ▸ htour⟩
  | cons step steps ih =>
    cases step with
    | next other =>
      by_cases hother : other = walker
      · subst hother
        rw [List.filter_cons_of_pos (by simp [Step.concerns])]
        refine ih (s := s.advance other) (u := u.advance other) hgraph ?_ hrun
        rw [tours_advance, tours_advance, if_pos rfl, if_pos rfl, htour, hgraph]
      · rw [List.filter_cons_of_neg (by simp [Step.concerns, hother])]
        refine ih (s := s.advance other) hgraph ?_ hrun
        rw [tours_advance, if_neg (Ne.symm hother), htour]
    | addChild parent child =>
      rw [List.filter_cons_of_pos rfl]
      rw [run, step] at hrun ⊢
      rw [hgraph]
      cases hadd : s.graph.addChild parent child with
      | error e =>
        rw [hadd] at hrun
        cases hrun
      | ok g =>
        rw [hadd] at hrun
        exact ih (s := { s with graph := g }) (u := { u with graph := g }) rfl htour hrun

/-- Walks may go on in turn with additions of fresh children, in any order. A walk that has not gone on from any node when
that node gets a child visits, when it is taken to its end, the levels of the tree below its start as the tree is in the
end; and what a walk visits is what it would visit if no other one ever went on. -/
theorem run_visits_levels {g : Graph ι Json} (hforest : g.IsForest) (starts : τ → ι)
    (hfresh : (start g starts).AddsFresh steps) :
    ∃ s, (start g starts).run steps = .ok s ∧
      (∀ walker, (start g starts).Spares walker steps →
        ∃ height, (∀ depth, height ≤ depth → s.graph.level (starts walker) depth = []) ∧
          ∀ more, (s.tours walker).visited ++ (s.tours walker).walk.take s.graph
            ((s.graph.levels (starts walker) height).length + more) = s.graph.levels (starts walker) height) ∧
      ∀ walker, ∃ s', (start g starts).run (steps.filter (·.concerns walker)) = .ok s' ∧ s'.graph = s.graph ∧
        s'.tours walker = s.tours walker := by
  obtain ⟨s, hrun⟩ := exists_run_of_addsFresh hfresh
  refine ⟨s, hrun, fun walker hspared => ?_, fun walker => run_filter_concerns walker rfl rfl hrun⟩
  have htree := (isForest_of_run hforest hfresh hrun).isTreeFrom (starts walker)
  obtain ⟨taken, htaken⟩ := (follows_of_run .start hspared hrun).exists_take
  refine ⟨s.graph.size + 1, fun depth hdepth => htree.level_eq_nil hdepth, fun more => ?_⟩
  rw [htaken, Nat.add_left_comm, htree.take_start]

/-- A tree of four nodes, and beside it one of two nodes and two nodes alone. -/
def grove : Graph Nat Json :=
  let nodes := (List.range 8).foldl (fun g i => g.add i none) ({} : Graph Nat Json)
  [(0, 1), (0, 2), (1, 3), (4, 5)].foldl (fun g (p, c) => g.link p c) nodes

/-- Two walks, from the root and from the node 1, in which nodes get children that have been visited but not gone on from,
except for the node 1, from which the second walk has gone on already. -/
def growth : List (Step Bool Nat) :=
  [.next false, .addChild 0 4, .next true, .next false, .next true, .addChild 1 6, .next false, .addChild 5 7]

theorem isForest_grove : grove.IsForest := Graph.isForest_of_rank id (by decide) (by decide)

def twoWalks : Scene Bool Nat := start grove (if · then 1 else 0)

theorem addsFresh_growth : twoWalks.AddsFresh growth :=
  ⟨Graph.isFresh_of_keys [4, 5] (by decide) (by decide) (by decide) (by decide),
    Graph.isFresh_of_keys [6] (by decide) (by decide) (by decide) (by decide),
    Graph.isFresh_of_keys [7] (by decide) (by decide) (by decide) (by decide), trivial⟩

theorem spares_growth : twoWalks.Spares false growth :=
  ⟨by decide, by decide, by decide, trivial⟩

theorem run_visits_levels_grove : grove.IsForest ∧ twoWalks.AddsFresh growth ∧ twoWalks.Spares false growth ∧
    ∃ s, twoWalks.run growth = .ok s ∧
      (∃ height, (∀ depth, height ≤ depth → s.graph.level 0 depth = []) ∧
        ∀ more, (s.tours false).visited ++ (s.tours false).walk.take s.graph ((s.graph.levels 0 height).length + more) =
          s.graph.levels 0 height) ∧
      ∀ walker, ∃ s', twoWalks.run (growth.filter (·.concerns walker)) = .ok s' ∧ s'.graph = s.graph ∧
        s'.tours walker = s.tours walker := by
  obtain ⟨s, hrun, hlevels, hothers⟩ :=
    run_visits_levels isForest_grove (fun walker : Bool => if walker then 1 else 0) addsFresh_growth
  exact ⟨isForest_grove, addsFresh_growth, spares_growth, s, hrun, hlevels false spares_growth, hothers⟩

/-- The second walk, which has gone on from the node 1 before, misses its new child. -/
example : (do
    let s ← twoWalks.run growth
    let whole (walker : Bool) := (s.tours walker).visited ++ (s.tours walker).walk.take s.graph 8
    return (whole false, whole true, s.graph.levels 1 8)) = .ok ([0, 1, 2, 4, 3, 6, 5, 7], [1, 3], [1, 3, 6]) := by
  decide

end Scene

end ServiceMap
