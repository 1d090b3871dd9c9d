import ServiceMap.Tree.Graph

/-!
# Building trees

A tree from entries that name their parent, which may come in any order. What does not fit is never an error: an entry
that would close a cycle is refused, of several entries with one id the first counts, and a node whose parent never comes
is attributed to the root. Each of these is noted.

The root is the designated one or, without a designated one, the first entry without a parent. If it never comes, a node
without a value stands for it. The parent that the root declares is ignored.

Ids may be null. A null id is an id like any other, but as a parent null means that there is none.
-/

namespace ServiceMap

/-- An entry of a tree: an id, the id of its parent and a value, of which each may be missing. -/
structure Entry (κ α : Type) where
  parent : Option κ
  id : Option κ
  value : Option α
deriving Repr, DecidableEq

/-- A node of a built tree: the one with an id, or the one that stands for a missing root. -/
inductive Slot (κ : Type) where
  | id (id : Option κ)
  | placeholder
deriving Repr, DecidableEq

/-- What is noted while a tree is built. -/
inductive TreeNote (κ : Type) where
  | circular (traceId : String) (id : Option κ)
  | duplicate (traceId : String) (id : Option κ)
  | missingRoot (traceId : String)
  | orphan (traceId : String) (rootId id : Option κ)
deriving Repr, DecidableEq

/-- A note in words, given how ids are shown. -/
def TreeNote.message {κ : Type} (shown : κ → String) : TreeNote κ → String
  | circular traceId id => s!"skipping circular dependency: traceId={traceId}, spanId={name id}"
  | duplicate traceId id => s!"skipping duplicate span: traceId={traceId}, spanId={name id}"
  | missingRoot traceId => s!"substituting dummy node for missing root span: traceId={traceId}"
  | orphan traceId rootId id =>
    s!"attributing span missing parent to root: traceId={traceId}, rootSpanId={name rootId}, spanId={name id}"
where
  name (id : Option κ) : String := (id.map shown).getD "None"

/-- A tree under construction. The ids declared so far stand with the parent that counts for them, in order; children
that came before their parent wait under its id. -/
structure TreeBuilder (κ α : Type) where
  traceId : String
  rootId : Option κ
  graph : Graph (Slot κ) α := {}
  declared : Table (Option κ) (Option κ) := .empty
  waiting : Table κ (List (Option κ)) := .empty
  built : Bool := false
deriving Repr, DecidableEq

/-- A built tree. -/
structure Tree (κ α : Type) where
  graph : Graph (Slot κ) α
  root : Slot κ
deriving Repr, DecidableEq

namespace TreeBuilder

variable {κ α : Type} [DecidableEq κ]

def start (traceId : Option String) (rootId : Option κ) : Except Failure (TreeBuilder κ α) :=
  match traceId with
  | some traceId => .ok { traceId, rootId }
  | none => .error .noTraceId

/-- The id stands on the chain of declared parents that begins with `ancestor`, within the given number of steps. -/
def isAncestorWithin (b : TreeBuilder κ α) (id : Option κ) : (steps : Nat) → (ancestor : Option κ) → Bool
  | 0, _ => false
  | _ + 1, none => false
  | steps + 1, some a =>
    some a == id || b.isAncestorWithin id steps ((b.declared.get? (some a)).getD none)

/-- The id stands on the chain of declared parents that begins with `ancestor`. The chain has no cycle, so it has at most
one id that is not declared after those that are. -/
def isAncestor (b : TreeBuilder κ α) (id ancestor : Option κ) : Bool :=
  b.isAncestorWithin id (b.declared.size + 1) ancestor

def isDeclaredParent (b : TreeBuilder κ α) (id : Option κ) : Bool := b.declared.entries.any (·.2 == id)

/-- The entry would close a cycle. The parent that the root declares is ignored, so it closes none; and nothing is below
an id that no node declares as its parent. -/
def closesCycle (b : TreeBuilder κ α) (parent id : Option κ) : Bool :=
  id == parent || (id != b.rootId && b.isDeclaredParent id && b.isAncestor id parent)

/-- The builder with a new node under its parent, or waiting for it. -/
def attach (b : TreeBuilder κ α) (id : Option κ) : (parent : Option κ) → TreeBuilder κ α
  | none => b
  | some p =>
    if b.declared.contains (some p) then { b with graph := b.graph.link (.id (some p)) (.id id) }
    else { b with waiting := b.waiting.alter p fun ids => ids.getD [] ++ [id] }

/-- The builder in which the children that wait for a node are under it. -/
def adopt (b : TreeBuilder κ α) : (id : Option κ) → TreeBuilder κ α
  | none => b
  | some k =>
    let children := (b.waiting.get? k).getD []
    { b with
      graph := children.foldl (fun g child => g.link (.id (some k)) (.id child)) b.graph
      waiting := b.waiting.erase k }

def register (b : TreeBuilder κ α) (parent id : Option κ) (value : α) : TreeBuilder κ α :=
  let rootId := if parent.isNone && b.rootId.isNone then id else b.rootId
  let parent := if id = rootId then none else parent
  let b := { b with
    rootId
    graph := b.graph.add (.id id) (some value)
    declared := b.declared.insert id parent }
  (b.attach id parent).adopt id

/-- What adding an entry comes to: the builder afterwards, whether the entry fits, and what was noted. -/
structure Addition (κ α : Type) where
  builder : TreeBuilder κ α
  fits : Bool
  notes : List (TreeNote κ)
deriving Repr, DecidableEq

/-- Adds an entry. It does not fit only if it would close a cycle. -/
def add (b : TreeBuilder κ α) (entry : Entry κ α) : Except Failure (Addition κ α) :=
  if b.built then .error .alreadyBuilt
  else if b.closesCycle entry.parent entry.id then .ok ⟨b, false, [.circular b.traceId entry.id]⟩
  else if b.declared.contains entry.id then .ok ⟨b, true, [.duplicate b.traceId entry.id]⟩
  else match entry.value with
    | none => .error .noValue
    | some value => .ok ⟨b.register entry.parent entry.id value, true, []⟩

/-! ### The finished tree -/

/-- The nodes without a parent, in order, except for the root. -/
def orphans (b : TreeBuilder κ α) (root : Slot κ) : List (Option κ) :=
  b.declared.keys.filter fun id => Slot.id id != root && (b.graph.parent? (.id id)).isNone

/-- The parent that an id declares, null if that is not counted. -/
def declaredParent (b : TreeBuilder κ α) (id : Option κ) : Option κ := (b.declared.get? id).getD none

/-- What finishing a tree comes to: the builder afterwards, the tree, and what was noted. -/
structure Completion (κ α : Type) where
  builder : TreeBuilder κ α
  tree : Tree κ α
  notes : List (TreeNote κ)
deriving Repr, DecidableEq

/-- Finishes the tree: nodes without a parent are attributed to the root, in order. If the root is missing, the parent
that the first of them declares counts as the root id unless there is one, and the children of the root are not noted as
attributed. The builder gives the tree away: it is empty afterwards, and takes nothing any more. -/
def build (b : TreeBuilder κ α) : Except Failure (Completion κ α) :=
  if b.built then .error .alreadyBuilt
  else
    let headless := !b.declared.contains b.rootId
    let root : Slot κ := if headless then .placeholder else .id b.rootId
    let orphans := b.orphans root
    let rootId :=
      if headless && b.rootId.isNone then (orphans.head?.map b.declaredParent).getD none else b.rootId
    let isNoted (id : Option κ) : Bool :=
      !headless || !(b.declaredParent id == none || b.declaredParent id == rootId)
    let graph := if headless then b.graph.add .placeholder none else b.graph
    let graph := orphans.foldl (fun g id => g.link root (.id id)) graph
    .ok {
      builder := { traceId := b.traceId, rootId, built := true }
      tree := { graph, root }
      notes := (if headless then [.missingRoot b.traceId] else []) ++
        (orphans.filter isNoted).map (.orphan b.traceId rootId) }

def addAll (b : TreeBuilder κ α) : List (Entry κ α) → Except Failure (TreeBuilder κ α × List (TreeNote κ))
  | [] => .ok (b, [])
  | entry :: entries => do
    let addition ← b.add entry
    let (b, notes) ← addition.builder.addAll entries
    return (b, addition.notes ++ notes)

end TreeBuilder

namespace Tree

variable {κ α : Type} [DecidableEq κ]

/-- The tree of some entries, and what was noted while it was built. -/
def ofEntries (traceId : String) (entries : List (Entry κ α)) : Except Failure (Tree κ α × List (TreeNote κ)) := do
  let b ← TreeBuilder.start (some traceId) none
  let (b, notes) ← b.addAll entries
  let completion ← b.build
  return (completion.tree, notes ++ completion.notes)

def nodes (t : Tree κ α) : List (Slot κ) := t.graph.breadthFirst t.root

end Tree

end ServiceMap
