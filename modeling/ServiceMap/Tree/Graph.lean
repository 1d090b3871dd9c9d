import ServiceMap.Json.Writer
import ServiceMap.Failure
import ServiceMap.Table

/-!
# Nodes and their children

Nodes under handles. A node has a value, unless it only stands for something missing, a list of children and the parent
that took it last. Nothing here keeps the children from forming a loop; a node is only refused as its own child.

Nodes are visited in breadth-first order by a walk, which may be left and taken up again while the nodes change: the
children of a node are looked at only when the walk goes on from it.
-/

namespace ServiceMap

/-- A node of a graph. -/
structure Node (ι α : Type) where
  value : Option α := none
  children : List ι := []
  parent : Option ι := none
deriving Repr, DecidableEq

/-- Nodes under handles, in the order in which they came in. -/
structure Graph (ι α : Type) where
  nodes : Table ι (Node ι α) := .empty
deriving Repr, DecidableEq

namespace Graph

variable {ι α : Type} [DecidableEq ι]

def size (g : Graph ι α) : Nat := g.nodes.size

/-- The node under a handle; one without anything if there is none. -/
def node (g : Graph ι α) (i : ι) : Node ι α := (g.nodes.get? i).getD {}

def children (g : Graph ι α) (i : ι) : List ι := (g.node i).children

def parent? (g : Graph ι α) (i : ι) : Option ι := (g.node i).parent

def value? (g : Graph ι α) (i : ι) : Option α := (g.node i).value

/-- The graph with a new node that has neither parent nor children. -/
def add (g : Graph ι α) (i : ι) (value : Option α) : Graph ι α := ⟨g.nodes.insert i { value }⟩

def modify (g : Graph ι α) (i : ι) (f : Node ι α → Node ι α) : Graph ι α :=
  ⟨g.nodes.alter i fun node => f (node.getD {})⟩

/-- The graph in which a node has one more child at the end. The child keeps its place among the children of an earlier
parent. -/
def link (g : Graph ι α) (parent child : ι) : Graph ι α :=
  (g.modify child fun node => { node with parent := some parent }).modify parent fun node =>
    { node with children := node.children ++ [child] }

/-! ### What a change does to the nodes -/

theorem node_of_not_mem {g : Graph ι α} {i : ι} (h : i ∉ g.nodes.keys) : g.node i = {} := by
  rw [node, Table.get?_eq_none_iff.mpr h, Option.getD_none]

theorem children_of_not_mem {g : Graph ι α} {i : ι} (h : i ∉ g.nodes.keys) : g.children i = [] := by
  rw [children, node_of_not_mem h]

theorem parent?_of_not_mem {g : Graph ι α} {i : ι} (h : i ∉ g.nodes.keys) : g.parent? i = none := by
  rw [parent?, node_of_not_mem h]

theorem value?_of_not_mem {g : Graph ι α} {i : ι} (h : i ∉ g.nodes.keys) : g.value? i = none := by
  rw [value?, node_of_not_mem h]

omit [DecidableEq ι] in
theorem length_keys (g : Graph ι α) : g.nodes.keys.length = g.size := g.nodes.length_keys

theorem node_add (g : Graph ι α) (i j : ι) (value : Option α) :
    (g.add i value).node j = if j = i then { value } else g.node j := by
  by_cases h : j = i
  · subst h
    simp [node, add]
  · simp [node, add, h, Table.get?_insert_of_ne (Ne.symm h)]

theorem node_modify (g : Graph ι α) (i j : ι) (f : Node ι α → Node ι α) :
    (g.modify i f).node j = if j = i then f (g.node i) else g.node j := by
  by_cases h : j = i
  · subst h
    simp [node, modify]
  · simp [node, modify, h, Table.get?_alter_of_ne (Ne.symm h)]

theorem keys_add_of_not_mem {g : Graph ι α} {i : ι} (hnew : i ∉ g.nodes.keys) (value : Option α) :
    (g.add i value).nodes.keys = g.nodes.keys ++ [i] :=
  Table.keys_insert_of_not_mem hnew _

theorem value?_add (g : Graph ι α) (i j : ι) (value : Option α) :
    (g.add i value).value? j = if j = i then value else g.value? j := by
  simp only [value?, node_add]
  split <;> rfl

/-- A new node has no parent, as it had none before it was there. -/
theorem parent?_add_of_not_mem {g : Graph ι α} {i : ι} (hnew : i ∉ g.nodes.keys) (value : Option α) (j : ι) :
    (g.add i value).parent? j = g.parent? j := by
  simp only [parent?, node_add]
  split
  · rename_i h
    rw [h, node_of_not_mem hnew]
  · rfl

theorem children_add_of_not_mem {g : Graph ι α} {i : ι} (hnew : i ∉ g.nodes.keys) (value : Option α) (j : ι) :
    (g.add i value).children j = g.children j := by
  simp only [children, node_add]
  split
  · rename_i h
    rw [h, node_of_not_mem hnew]
  · rfl

@[simp] theorem value?_link (g : Graph ι α) (parent child i : ι) :
    (g.link parent child).value? i = g.value? i := by
  simp only [value?, link, node_modify]
  split <;> split <;> simp_all

theorem parent?_link (g : Graph ι α) (parent child i : ι) :
    (g.link parent child).parent? i = if i = child then some parent else g.parent? i := by
  simp only [parent?, link, node_modify]
  split <;> split <;> simp_all

theorem children_link (g : Graph ι α) (parent child i : ι) :
    (g.link parent child).children i = if i = parent then g.children parent ++ [child] else g.children i := by
  simp only [children, link, node_modify]
  split <;> split <;> simp_all

theorem keys_link {g : Graph ι α} {parent child : ι} (hparent : parent ∈ g.nodes.keys)
    (hchild : child ∈ g.nodes.keys) : (g.link parent child).nodes.keys = g.nodes.keys := by
  simp [link, modify, Table.keys_alter, hparent, hchild]

/-- The ancestors of a node, nearest first, as far as the given number of steps up. -/
def ancestorsUpTo (g : Graph ι α) : (steps : Nat) → ι → List ι
  | 0, _ => []
  | steps + 1, i =>
    match g.parent? i with
    | some p => p :: g.ancestorsUpTo steps p
    | none => []

/-- The ancestors of a node, nearest first. Without a loop there are fewer of them than nodes. -/
def ancestors (g : Graph ι α) (i : ι) : List ι := g.ancestorsUpTo g.size i

/-- What is found first at an ancestor of a node, nearest first, as far as the given number of steps up. -/
def findAncestorFrom {β : Type} (g : Graph ι α) (find : Node ι α → Option β) :
    (steps : Nat) → Node ι α → Option β
  | 0, _ => none
  | steps + 1, node =>
    match node.parent with
    | some p =>
      let next := g.node p
      match find next with
      | some b => some b
      | none => g.findAncestorFrom find steps next
    | none => none

/-- What is found first at an ancestor of a node, nearest first. The search does not go further up than needed. -/
def findAncestor? {β : Type} (g : Graph ι α) (find : Node ι α → Option β) (i : ι) : Option β :=
  g.findAncestorFrom find g.size (g.node i)

private theorem findAncestorFrom_eq {β : Type} (g : Graph ι α) (find : Node ι α → Option β) (steps : Nat) (i : ι) :
    g.findAncestorFrom find steps (g.node i) = (g.ancestorsUpTo steps i).findSome? fun a => find (g.node a) := by
  induction steps generalizing i with
  | zero => rfl
  | succ steps ih =>
    cases hparent : (g.node i).parent with
    | none => simp [findAncestorFrom, ancestorsUpTo, parent?, hparent]
    | some p => cases hfound : find (g.node p) <;> simp [findAncestorFrom, ancestorsUpTo, parent?, hparent, hfound, ih]

/-- The search finds what the list of all ancestors holds first. -/
theorem findAncestor?_eq {β : Type} (g : Graph ι α) (find : Node ι α → Option β) (i : ι) :
    g.findAncestor? find i = (g.ancestors i).findSome? fun a => find (g.node a) :=
  findAncestorFrom_eq g find g.size i

/-! ### Changes that may be refused -/

/-- The graph with another value at a node; nothing is no value. -/
def setValue (g : Graph ι α) (i : ι) : Option α → Except Failure (Graph ι α)
  | some value => .ok (g.modify i fun node => { node with value := some value })
  | none => .error .noValue

/-- The graph in which a node has one more child, which must not be the node itself. -/
def addChild (g : Graph ι Json) (parent child : ι) : Except Failure (Graph ι Json) :=
  if child = parent then .error (.ownChild ((g.value? parent).getD .null).quoted)
  else .ok (g.link parent child)

end Graph

/-- A walk: the nodes still to be visited, and the node visited last, whose children have not been looked at yet. -/
structure Walk (ι : Type) where
  queue : List ι
  last : Option ι := none
deriving Repr, DecidableEq

namespace Walk

variable {ι α : Type} [DecidableEq ι]

def start (i : ι) : Walk ι := { queue := [i] }

/-- The nodes to be visited after the children of the node visited last are looked at. -/
def upcoming (g : Graph ι α) (w : Walk ι) : List ι :=
  w.queue ++ (w.last.map g.children).getD []

/-- The next node of a walk, if there is one, and the walk from there on. A walk that has ended stays so. -/
def next (g : Graph ι α) (w : Walk ι) : Option ι × Walk ι :=
  match w.upcoming g with
  | [] => (none, { queue := [] })
  | i :: rest => (some i, { queue := rest, last := some i })

/-- The next nodes of a walk, at most `count`. -/
def take (g : Graph ι α) : (count : Nat) → Walk ι → List ι
  | 0, _ => []
  | count + 1, w =>
    match w.next g with
    | (some i, w) => i :: w.take g count
    | (none, _) => []

end Walk

namespace Graph

variable {ι α : Type} [DecidableEq ι]

/-- A node and everything below it in breadth-first order. Below a node of a tree there are at most as many nodes as in
the graph. -/
def breadthFirst (g : Graph ι α) (i : ι) : List ι := (Walk.start i).take g g.size

end Graph

end ServiceMap
