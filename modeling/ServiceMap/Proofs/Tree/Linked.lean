import ServiceMap.Proofs.Tree.Declared

/-!
# What holds while a tree is built

A builder keeps the parents that ids declare, the nodes, and the children that wait for their parent. `Linked` says how
the three hang together: a node is below its declared parent as soon as both are there, in the order in which the
children came, the others wait in that order, and the declared parents form no cycle. The invariant holds of a builder
without entries and every entry keeps it, whether it is registered, refused, passed over or an error. All else that is
known about built trees follows from it.
-/

namespace ServiceMap

/-! ### Linking many children -/

namespace Graph

variable {ι α : Type} [DecidableEq ι]

/-- The graph in which a node has some more children at the end. -/
def linkAll (g : Graph ι α) (parent : ι) (children : List ι) : Graph ι α := children.foldl (·.link parent ·) g

theorem value?_linkAll (g : Graph ι α) (parent : ι) (cs : List ι) (i : ι) :
    (g.linkAll parent cs).value? i = g.value? i := by
  induction cs generalizing g with
  | nil => rfl
  | cons c cs ih => exact (ih (g.link parent c)).trans (value?_link g parent c i)

theorem parent?_linkAll (g : Graph ι α) (parent : ι) (cs : List ι) (i : ι) :
    (g.linkAll parent cs).parent? i = if i ∈ cs then some parent else g.parent? i := by
  induction cs generalizing g with
  | nil => simp [linkAll]
  | cons c cs ih =>
    refine (ih (g.link parent c)).trans ?_
    rw [parent?_link]
    by_cases hi : i ∈ cs
    · simp [hi]
    · simp [hi]

theorem children_linkAll (g : Graph ι α) (parent : ι) (cs : List ι) (i : ι) :
    (g.linkAll parent cs).children i = if i = parent then g.children parent ++ cs else g.children i := by
  induction cs generalizing g with
  | nil =>
    by_cases hi : i = parent
    · simp [linkAll, hi]
    · simp [linkAll, hi]
  | cons c cs ih =>
    refine (ih (g.link parent c)).trans ?_
    simp only [children_link, if_pos]
    split <;> simp

theorem keys_linkAll {g : Graph ι α} {parent : ι} (hparent : parent ∈ g.nodes.keys) {cs : List ι}
    (hcs : ∀ c ∈ cs, c ∈ g.nodes.keys) : (g.linkAll parent cs).nodes.keys = g.nodes.keys := by
  induction cs generalizing g with
  | nil => rfl
  | cons c cs ih =>
    have hlink := keys_link hparent (hcs c List.mem_cons_self)
    refine (ih (by rwa [hlink]) fun d hd => ?_).trans hlink
    rw [hlink]
    exact hcs d (List.mem_cons_of_mem _ hd)

end Graph

namespace TreeBuilder

variable {κ α : Type} [DecidableEq κ]

/-! ### The invariant -/

/-- The node of an id that is named as a parent, if it is there. -/
def parentNode (b : TreeBuilder κ α) : (parent : Option κ) → Option (Slot κ)
  | none => none
  | some p => if some p ∈ b.declared.keys then some (.id (some p)) else none

theorem parentNode_congr {b b' : TreeBuilder κ α} (h : b.declared = b'.declared) :
    b.parentNode = b'.parentNode := by
  funext parent
  cases parent <;> simp only [parentNode, h]

/-- The node of the declared parent, if it is there. -/
def linkedParent (b : TreeBuilder κ α) (id : Option κ) : Option (Slot κ) := b.parentNode (b.declaredParent id)

/-- Nodes are linked as their ids are declared, what cannot be linked yet waits, and nothing is above itself. -/
structure Linked (b : TreeBuilder κ α) : Prop where
  keys_nodup : b.declared.keys.Nodup
  node_keys : b.graph.nodes.keys = b.declared.keys.map .id
  parent?_id : ∀ id, b.graph.parent? (.id id) = b.linkedParent id
  children_id : ∀ id ∈ b.declared.keys, b.graph.children (.id id) = (b.declaredChildren id).map .id
  waiting : ∀ k, (b.waiting.get? k).getD [] = if some k ∈ b.declared.keys then [] else b.declaredChildren (some k)
  acyclic : Acyclic b.above
  declaredParent_root : b.declaredParent b.rootId = none

theorem parentNode_eq_some_iff {b : TreeBuilder κ α} {parent : Option κ} {slot : Slot κ} :
    b.parentNode parent = some slot ↔ ∃ p, parent = some p ∧ some p ∈ b.declared.keys ∧ slot = .id (some p) := by
  cases parent with
  | none => simp [parentNode]
  | some p =>
    by_cases hp : some p ∈ b.declared.keys
    · simp [parentNode, hp, eq_comm]
    · simp [parentNode, hp]

theorem Linked.start (traceId : String) (rootId : Option κ) : (⟨traceId, rootId, {}, .empty, .empty, false⟩ : TreeBuilder κ α).Linked where
  keys_nodup := List.nodup_nil
  node_keys := rfl
  parent?_id _ := rfl
  children_id _ h := absurd h List.not_mem_nil
  waiting _ := by simp [Table.get?, Table.empty, Table.keys, declaredChildren]
  acyclic := by
    intro i steps hpos hclimb
    obtain ⟨rest, rfl⟩ : ∃ rest, steps = rest + 1 := ⟨steps - 1, by omega⟩
    simp [climb_succ, above, declaredParent, Table.get?, Table.empty] at hclimb
  declaredParent_root := rfl

/-! ### A new node

A node is registered in three steps: it is declared and comes in on its own, it is attached to its parent or waits for
it, and it adopts the children that wait for it. -/

def rootAfter (b : TreeBuilder κ α) (parent id : Option κ) : Option κ :=
  if parent.isNone && b.rootId.isNone then id else b.rootId

/-- The parent that counts for a registered entry. -/
def parentAfter (b : TreeBuilder κ α) (parent id : Option κ) : Option κ :=
  if id = b.rootAfter parent id then none else parent

/-- The builder with a node that is declared and not linked. -/
def declare (b : TreeBuilder κ α) (parent id : Option κ) (value : α) : TreeBuilder κ α :=
  { b with
    rootId := b.rootAfter parent id
    graph := b.graph.add (.id id) (some value)
    declared := b.declared.insert id (b.parentAfter parent id) }

theorem register_eq (b : TreeBuilder κ α) (parent id : Option κ) (value : α) :
    b.register parent id value = ((b.declare parent id value).attach id (b.parentAfter parent id)).adopt id := rfl

/-- Linking a new node changes the nodes and who waits, and nothing else. -/
theorem attach_eq (b : TreeBuilder κ α) (id parent : Option κ) :
    b.attach id parent =
      { b with graph := (b.attach id parent).graph, waiting := (b.attach id parent).waiting } := by
  unfold attach
  split
  · rfl
  · split <;> rfl

theorem adopt_eq (b : TreeBuilder κ α) (id : Option κ) :
    b.adopt id = { b with graph := (b.adopt id).graph, waiting := (b.adopt id).waiting } := by
  cases id <;> rfl

section Fields

variable (b : TreeBuilder κ α) (parent id : Option κ) (value : α)

theorem declared_register :
    (b.register parent id value).declared = b.declared.insert id (b.parentAfter parent id) := by
  rw [register_eq, adopt_eq, attach_eq]
  rfl

@[simp] theorem rootId_register : (b.register parent id value).rootId = b.rootAfter parent id := by
  rw [register_eq, adopt_eq, attach_eq]
  rfl

@[simp] theorem built_register : (b.register parent id value).built = b.built := by
  rw [register_eq, adopt_eq, attach_eq]
  rfl

end Fields

theorem parentAfter_of_some {b : TreeBuilder κ α} {parent id : Option κ} {p : κ}
    (h : b.parentAfter parent id = some p) : parent = some p ∧ id ≠ b.rootId := by
  unfold parentAfter rootAfter at h
  cases parent with
  | none => split at h <;> simp at h
  | some q =>
    simp only [Option.isNone_some, Bool.false_and, Bool.false_eq_true, if_false] at h
    split at h
    · simp at h
    · rename_i hroot
      exact ⟨h, hroot⟩

section Register

variable {b : TreeBuilder κ α} {parent id : Option κ}

theorem declaredParent_register (b : TreeBuilder κ α) (parent id : Option κ) (value : α) (j : Option κ) :
    (b.register parent id value).declaredParent j =
      if j = id then b.parentAfter parent id else b.declaredParent j :=
  declaredParent_of_insert (declared_register b parent id value) j

variable (hnew : id ∉ b.declared.keys)
include hnew

theorem keys_register (value : α) : (b.register parent id value).declared.keys = b.declared.keys ++ [id] :=
  keys_of_insert hnew (declared_register b parent id value)

theorem declaredChildren_register (value : α) (k : κ) :
    (b.register parent id value).declaredChildren (some k) =
      b.declaredChildren (some k) ++ if b.parentAfter parent id = some k then [id] else [] :=
  declaredChildren_of_insert hnew (declared_register b parent id value) k

end Register

/-! ### Linking a new node -/

section Attach

variable (b : TreeBuilder κ α) (id parent : Option κ)

theorem graph_attach : (b.attach id parent).graph =
    match b.parentNode parent with
    | some slot => b.graph.link slot (.id id)
    | none => b.graph := by
  cases parent with
  | none => rfl
  | some p =>
    by_cases hp : some p ∈ b.declared.keys
    · simp [attach, parentNode, hp]
    · simp [attach, parentNode, hp]

theorem parent?_attach (slot : Slot κ) : (b.attach id parent).graph.parent? slot =
    if slot = .id id then (b.parentNode parent).or (b.graph.parent? slot) else b.graph.parent? slot := by
  rw [graph_attach]
  cases b.parentNode parent with
  | none => simp
  | some p => simp [Graph.parent?_link]

theorem children_attach (slot : Slot κ) : (b.attach id parent).graph.children slot =
    b.graph.children slot ++ if b.parentNode parent = some slot then [.id id] else [] := by
  rw [graph_attach]
  cases b.parentNode parent with
  | none => simp
  | some p =>
    simp only [Graph.children_link, Option.some.injEq]
    by_cases h : slot = p
    · simp [h]
    · simp [h, Ne.symm h]

theorem value?_attach (slot : Slot κ) : (b.attach id parent).graph.value? slot = b.graph.value? slot := by
  rw [graph_attach]
  cases b.parentNode parent <;> simp

theorem waiting_attach (k : κ) : ((b.attach id parent).waiting.get? k).getD [] =
    (b.waiting.get? k).getD [] ++ if parent = some k ∧ some k ∉ b.declared.keys then [id] else [] := by
  cases parent with
  | none => simp [attach]
  | some p =>
    by_cases hp : some p ∈ b.declared.keys
    · by_cases h : p = k
      · simp [attach, hp, h ▸ hp]
      · simp [attach, hp, h]
    · by_cases h : p = k
      · subst h
        simp [attach, hp]
      · simp [attach, hp, h, Table.get?_alter_of_ne h]

def adoptees : Option κ → List (Slot κ)
  | none => []
  | some k => ((b.waiting.get? k).getD []).map .id

theorem graph_adopt : (b.adopt id).graph = b.graph.linkAll (.id id) (b.adoptees id) := by
  cases id with
  | none => rfl
  | some k => simp only [adopt, adoptees, Graph.linkAll, List.foldl_map]

theorem waiting_adopt (k : κ) : (b.adopt id).waiting.get? k = if id = some k then none else b.waiting.get? k := by
  cases id with
  | none => rfl
  | some k' =>
    by_cases h : k' = k
    · simp [adopt, h, Table.get?_erase_self]
    · simp [adopt, h, Table.get?_erase_of_ne h]

end Attach

/-! ### Every entry keeps the invariant -/

namespace Linked

section Register

variable {b : TreeBuilder κ α} {parent id : Option κ} (h : b.Linked) (hnew : id ∉ b.declared.keys)
include h hnew

theorem slot_not_mem : Slot.id id ∉ b.graph.nodes.keys := by
  rw [h.node_keys]
  simpa using hnew

/-- Everyone who declares a new id as the parent waits for it. -/
theorem adoptees_new (hself : ∀ p, b.parentAfter parent id = some p → some p ≠ id) (value : α) :
    ((b.declare parent id value).attach id (b.parentAfter parent id)).adoptees id =
      (b.declaredChildren id).map .id := by
  cases id with
  | none => rfl
  | some k =>
    have hwait : ¬(b.parentAfter parent (some k) = some k ∧
        some k ∉ (b.declare parent (some k) value).declared.keys) := fun hk => hself k hk.1 rfl
    simp only [adoptees, waiting_attach, if_neg hwait, List.append_nil]
    exact congrArg _ ((h.waiting k).trans (if_neg hnew))

theorem mem_map_declaredChildren {j : Option κ} :
    Slot.id j ∈ (b.declaredChildren id).map Slot.id ↔ ∃ k, id = some k ∧ b.declaredParent j = some k := by
  cases id with
  | none => simp [declaredChildren]
  | some k => simp [mem_declaredChildren h.keys_nodup, eq_comm]

variable (hself : ∀ p, b.parentAfter parent id = some p → some p ≠ id) (value : α)
include hself

theorem graph_register_parent? (slot : Slot κ) : (b.register parent id value).graph.parent? slot =
    if slot ∈ (b.declaredChildren id).map .id then some (.id id)
    else if slot = .id id then (b.register parent id value).parentNode (b.parentAfter parent id)
    else b.graph.parent? slot := by
  have hbefore : (b.declare parent id value).graph.parent? slot = b.graph.parent? slot :=
    Graph.parent?_add_of_not_mem (h.slot_not_mem hnew) _ _
  have hnone : b.graph.parent? (.id id) = none := Graph.parent?_of_not_mem (h.slot_not_mem hnew)
  have hnode : (b.declare parent id value).parentNode = (b.register parent id value).parentNode :=
    parentNode_congr (by rw [declared_register, declare])
  rw [register_eq, graph_adopt, Graph.parent?_linkAll, h.adoptees_new hnew hself, parent?_attach, ← register_eq,
    hbefore, hnode]
  congr 1
  by_cases hslot : slot = .id id
  · rw [if_pos hslot, if_pos hslot, hslot, hnone, Option.or_none]
  · rw [if_neg hslot, if_neg hslot]

theorem graph_register_children (slot : Slot κ) : (b.register parent id value).graph.children slot =
    if slot = .id id then (b.declaredChildren id).map .id
    else b.graph.children slot ++
      if (b.register parent id value).parentNode (b.parentAfter parent id) = some slot then [.id id] else [] := by
  have hbefore : ∀ slot, (b.declare parent id value).graph.children slot = b.graph.children slot :=
    Graph.children_add_of_not_mem (h.slot_not_mem hnew) _
  have hnone : b.graph.children (.id id) = [] := Graph.children_of_not_mem (h.slot_not_mem hnew)
  have hnode : (b.declare parent id value).parentNode = (b.register parent id value).parentNode :=
    parentNode_congr (by rw [declared_register, declare])
  have hout : (b.register parent id value).parentNode (b.parentAfter parent id) ≠ some (.id id) := by
    intro heq
    obtain ⟨p, hp, _, hslot⟩ := parentNode_eq_some_iff.mp heq
    exact hself p hp (Slot.id.inj hslot).symm
  rw [register_eq, graph_adopt, Graph.children_linkAll, h.adoptees_new hnew hself, children_attach, children_attach,
    ← register_eq, hbefore, hbefore, hnode]
  by_cases hslot : slot = .id id
  · rw [if_pos hslot, if_pos hslot, hnone, if_neg hout, List.nil_append, List.nil_append]
  · rw [if_neg hslot, if_neg hslot]

theorem parent?_register (j : Option κ) :
    (b.register parent id value).graph.parent? (.id j) = (b.register parent id value).linkedParent j := by
  rw [h.graph_register_parent? hnew hself, h.parent?_id, linkedParent, linkedParent, declaredParent_register]
  simp only [h.mem_map_declaredChildren hnew, Slot.id.injEq]
  by_cases hj : j = id
  · have hnone := declaredParent_of_not_mem hnew
    simp [hj, hnone]
  · rw [if_neg hj, if_neg hj]
    by_cases hchild : ∃ k, id = some k ∧ b.declaredParent j = some k
    · obtain ⟨k, rfl, hk⟩ := hchild
      simp [hk, parentNode, keys_register hnew]
    · rw [if_neg hchild]
      cases hp : b.declaredParent j with
      | none => rfl
      | some q =>
        have hne : some q ≠ id := fun hq => hchild ⟨q, hq.symm, hp⟩
        simp [parentNode, keys_register hnew, hne]

theorem children_register (j : Option κ) (hj : j ∈ (b.register parent id value).declared.keys) :
    (b.register parent id value).graph.children (.id j) =
      ((b.register parent id value).declaredChildren j).map .id := by
  rw [keys_register hnew, List.mem_append, List.mem_singleton] at hj
  rw [h.graph_register_children hnew hself]
  by_cases hid : j = id
  · subst hid
    rw [if_pos rfl]
    cases j with
    | none => rfl
    | some k => rw [declaredChildren_register hnew, if_neg fun hk => hself k hk rfl, List.append_nil]
  · have hold : j ∈ b.declared.keys := hj.resolve_right hid
    rw [if_neg (by simpa using hid), h.children_id j hold]
    cases j with
    | none =>
      have hnone : (b.register parent id value).parentNode (b.parentAfter parent id) ≠ some (.id none) := by
        intro heq
        obtain ⟨p, _, _, hslot⟩ := parentNode_eq_some_iff.mp heq
        simp at hslot
      rw [if_neg hnone, List.append_nil]
      rfl
    | some k =>
      have hlinked : (b.register parent id value).parentNode (b.parentAfter parent id) = some (.id (some k)) ↔
          b.parentAfter parent id = some k := by
        rw [parentNode_eq_some_iff, keys_register hnew]
        constructor
        · rintro ⟨p, hp, _, hslot⟩
          rwa [Option.some.inj (Slot.id.inj hslot)]
        · intro hk
          exact ⟨k, hk, List.mem_append_left _ hold, rfl⟩
      simp only [hlinked, declaredChildren_register hnew, List.map_append]
      congr 1
      split <;> rfl

omit hself in
theorem waiting_register (k : κ) : ((b.register parent id value).waiting.get? k).getD [] =
    if some k ∈ (b.register parent id value).declared.keys then []
    else (b.register parent id value).declaredChildren (some k) := by
  have hkeys : (b.declare parent id value).declared.keys = b.declared.keys ++ [id] := by
    rw [← keys_register hnew value, declared_register, declare]
  have hbefore : ((b.declare parent id value).waiting.get? k).getD [] = (b.waiting.get? k).getD [] := rfl
  rw [register_eq, waiting_adopt, ← register_eq, keys_register hnew, declaredChildren_register hnew]
  by_cases hid : id = some k
  · simp [hid]
  · rw [if_neg hid, waiting_attach, hbefore, h.waiting, hkeys]
    have hne : ¬some k = id := fun e => hid e.symm
    by_cases hk : some k ∈ b.declared.keys
    · simp [hk]
    · simp [hk, hne]

theorem node_keys_register :
    (b.register parent id value).graph.nodes.keys = (b.register parent id value).declared.keys.map .id := by
  have hkeys : (b.declare parent id value).declared.keys = b.declared.keys ++ [id] := by
    rw [← keys_register hnew value, declared_register, declare]
  have hdeclare : (b.declare parent id value).graph.nodes.keys = (b.declared.keys ++ [id]).map .id := by
    rw [List.map_append, ← h.node_keys]
    exact Graph.keys_add_of_not_mem (h.slot_not_mem hnew) _
  have hattach : ((b.declare parent id value).attach id (b.parentAfter parent id)).graph.nodes.keys =
      (b.declared.keys ++ [id]).map .id := by
    rw [graph_attach]
    cases hnode : (b.declare parent id value).parentNode (b.parentAfter parent id) with
    | none => exact hdeclare
    | some slot =>
      obtain ⟨p, _, hp, rfl⟩ := parentNode_eq_some_iff.mp hnode
      rw [hkeys] at hp
      refine (Graph.keys_link ?_ ?_).trans hdeclare
      · rw [hdeclare]
        exact List.mem_map_of_mem hp
      · simp [hdeclare]
  rw [register_eq, graph_adopt, ← register_eq, keys_register hnew]
  refine (Graph.keys_linkAll ?_ fun c hc => ?_).trans hattach
  · simp [hattach]
  · rw [h.adoptees_new hnew hself] at hc
    obtain ⟨j, hj, rfl⟩ := List.mem_map.mp hc
    obtain ⟨k, _, hk⟩ := (h.mem_map_declaredChildren hnew).mp hc
    rw [hattach, List.map_append]
    exact List.mem_append_left _ (List.mem_map_of_mem (mem_keys_of_declaredParent hk))

omit hself in
theorem acyclic_register (hfree : ∀ p k, b.parentAfter parent id = some p → id = some k →
    ∀ steps, climb b.above steps p ≠ some k) : Acyclic (b.register parent id value).above := by
  have habove : (b.register parent id value).above =
      fun k => if some k = id then b.parentAfter parent id else b.above k :=
    funext fun k => declaredParent_register b parent id value (some k)
  cases id with
  | none =>
    have hsame : (b.register parent none value).above = b.above := by rw [habove]; simp
    exact hsame ▸ h.acyclic
  | some k =>
    have hnone : b.above k = none := declaredParent_of_not_mem hnew
    cases hp : b.parentAfter parent (some k) with
    | none =>
      have hsame : (b.register parent (some k) value).above = b.above := by
        rw [habove, hp]
        funext j
        split
        · rename_i hj
          rw [Option.some.inj hj, hnone]
        · rfl
      exact hsame ▸ h.acyclic
    | some p =>
      have hextended := h.acyclic.extend hnone (hfree p k hp rfl)
      rw [habove, hp]
      simpa only [Option.some.injEq] using hextended

omit hnew hself in
theorem declaredParent_root_register :
    (b.register parent id value).declaredParent (b.register parent id value).rootId = none := by
  rw [rootId_register, declaredParent_register]
  by_cases hroot : b.rootAfter parent id = id
  · rw [if_pos hroot, parentAfter, if_pos hroot.symm]
  · rw [if_neg hroot]
    rw [rootAfter] at hroot ⊢
    split
    · rename_i hfirst
      exact absurd (if_pos hfirst) hroot
    · exact h.declaredParent_root

end Register

theorem register {b : TreeBuilder κ α} (h : b.Linked) {parent id : Option κ} (hnew : id ∉ b.declared.keys)
    (hfits : b.closesCycle parent id = false) (value : α) : (b.register parent id value).Linked := by
  -- The new node is neither its own parent nor above it, as the entry would have closed a cycle.
  have hself : ∀ p, b.parentAfter parent id = some p → some p ≠ id := by
    intro p hp heq
    obtain ⟨rfl, _⟩ := parentAfter_of_some hp
    simp [closesCycle, heq] at hfits
  have hfree : ∀ p k, b.parentAfter parent id = some p → id = some k →
      ∀ steps, climb b.above steps p ≠ some k := by
    rintro p k hp rfl
    obtain ⟨rfl, hroot⟩ := parentAfter_of_some hp
    exact climb_ne_of_not_closesCycle h.acyclic hfits hroot
  exact {
    keys_nodup := declared_register b parent id value ▸ Table.nodup_keys_alter h.keys_nodup _ _
    node_keys := h.node_keys_register hnew hself value
    parent?_id := h.parent?_register hnew hself value
    children_id := h.children_register hnew hself value
    waiting := h.waiting_register hnew value
    acyclic := h.acyclic_register hnew value hfree
    declaredParent_root := h.declaredParent_root_register value }

end Linked

end TreeBuilder

end ServiceMap
