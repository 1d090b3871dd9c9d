import ServiceMap.Proofs.Tree.Attributed

/-!
# What has no effect leaves no trace

A builder in use: entries are added and the tree is finished, in any order and as often as one likes. Each of this is
done in steps, and what was changed before a step fails would stay changed. But all that can fail or refuse comes before
the first change. So an action that fails, is refused or repeats an id leaves the builder as it was, and without such
actions all others come to the same.
-/

namespace ServiceMap

namespace TreeBuilder

variable {κ α : Type} [DecidableEq κ]

/-! ### Step by step -/

/-- Steps that change a builder and may fail. What was changed before a failure stays changed. -/
abbrev Steps (κ α β : Type) := ExceptT Failure (StateM (TreeBuilder κ α)) β

/-- What some steps come to, and the builder they leave. -/
def Steps.from {β : Type} (steps : Steps κ α β) (b : TreeBuilder κ α) : Except Failure β × TreeBuilder κ α :=
  (steps.run.run b).run

def registerSteps (parent id : Option κ) (value : α) : Steps κ α Unit := do
  if parent.isNone && (← get).rootId.isNone then modify fun b => { b with rootId := id }
  let parent := if id = (← get).rootId then none else parent
  modify fun b => { b with graph := b.graph.add (.id id) (some value) }
  modify fun b => { b with declared := b.declared.insert id parent }
  modify fun b => b.attach id parent
  modify fun b => b.adopt id

/-- Whether the entry fits, and what is noted. -/
def addSteps (entry : Entry κ α) : Steps κ α (Bool × List (TreeNote κ)) := do
  let b ← get
  if b.built then throw .alreadyBuilt
  else if b.closesCycle entry.parent entry.id then return (false, [.circular b.traceId entry.id])
  else if b.declared.contains entry.id then return (true, [.duplicate b.traceId entry.id])
  else
    match entry.value with
    | none => throw .noValue
    | some value =>
      registerSteps entry.parent entry.id value
      return (true, [])

/-- The finished tree, and what is noted. -/
def buildSteps : Steps κ α (Tree κ α × List (TreeNote κ)) := do
  let b ← get
  if b.built then throw .alreadyBuilt
  else
    modify fun b => { b with built := true }
    modify fun now => { now with rootId := b.finalRootId }
    modify fun now => { now with graph := b.finished.graph }
    modify fun now => { now with graph := {}, declared := .empty, waiting := .empty }
    return (b.finished, b.buildNotes)

omit [DecidableEq κ] in
/-- The first steps may fail; then the others are not taken. -/
theorem from_bind {β γ : Type} (first : Steps κ α β) (next : β → Steps κ α γ) (b : TreeBuilder κ α) :
    Steps.from (first >>= next) b =
      match first.from b with
      | (.ok x, b') => (next x).from b'
      | (.error e, b') => (.error e, b') := by
  simp only [Steps.from, ExceptT.run, StateT.run, Id.run, bind, ExceptT.bind, ExceptT.mk, StateT.bind,
    ExceptT.bindCont]
  cases first b with
  | mk answer b' =>
    cases answer with
    | ok x => rfl
    | error e => rfl

omit [DecidableEq κ] in
theorem from_get_bind {β : Type} (next : TreeBuilder κ α → Steps κ α β) (b : TreeBuilder κ α) :
    Steps.from (get >>= next) b = (next b).from b := rfl

section Steps

variable (b : TreeBuilder κ α)

/-- Registering a node step by step. The node becomes the root before its parent is looked at, so the parent that the root
names is ignored already. -/
theorem from_registerSteps (parent id : Option κ) (value : α) :
    (registerSteps parent id value).from b = (.ok (), b.register parent id value) := by
  rw [registerSteps, from_get_bind, register]
  cases parent.isNone && b.rootId.isNone with
  | true => rfl
  | false => rfl

/-- Adding an entry step by step: all checks come before the first change. -/
theorem from_addSteps (entry : Entry κ α) : (addSteps entry).from b =
    match b.add entry with
    | .ok addition => (.ok (addition.fits, addition.notes), addition.builder)
    | .error e => (.error e, b) := by
  rw [addSteps, from_get_bind, add]
  cases b.built with
  | true => rfl
  | false =>
    cases b.closesCycle entry.parent entry.id with
    | true => rfl
    | false =>
      cases b.declared.contains entry.id with
      | true => rfl
      | false =>
        cases entry.value with
        | none => rfl
        | some value => exact (from_bind _ _ b).trans (by rw [from_registerSteps]; rfl)

/-- Finishing the tree step by step. That it was finished is checked before it is set. -/
theorem from_buildSteps : buildSteps.from b =
    match b.build with
    | .ok completion => (.ok (completion.tree, completion.notes), completion.builder)
    | .error e => (.error e, b) := by
  rw [buildSteps, from_get_bind]
  cases hbuilt : b.built with
  | true =>
    rw [build, if_pos hbuilt]
    rfl
  | false =>
    rw [build_eq_ok hbuilt]
    rfl

end Steps

/-! ### A builder in use -/

/-- What can be done with a builder, as often as one likes. -/
inductive Action (κ α : Type) where
  | add (entry : Entry κ α)
  | build

/-- What an action yields: whether the entry fits, or the finished tree. -/
inductive Answer (κ α : Type) where
  | added (fits : Bool)
  | tree (tree : Tree κ α)

/-- What can be seen of an action: what it yields or why it fails, what is noted, and the root id afterwards. -/
structure Outcome (κ α : Type) where
  answer : Except Failure (Answer κ α)
  notes : List (TreeNote κ)
  rootId : Option κ

def Action.steps : Action κ α → Steps κ α (Answer κ α × List (TreeNote κ))
  | add entry => do
    let (fits, notes) ← addSteps entry
    return (.added fits, notes)
  | build => do
    let (tree, notes) ← buildSteps
    return (.tree tree, notes)

/-- What an action comes to, and the builder it leaves. -/
def act (b : TreeBuilder κ α) (action : Action κ α) : Outcome κ α × TreeBuilder κ α :=
  match action.steps.from b with
  | (.ok (answer, notes), after) => (⟨.ok answer, notes, after.rootId⟩, after)
  | (.error e, after) => (⟨.error e, [], after.rootId⟩, after)

/-- The action fails, its entry does not fit, or its entry has an id that is already there. -/
def isIdle (b : TreeBuilder κ α) (action : Action κ α) : Bool :=
  match (b.act action).1.answer, action with
  | .error _, _ => true
  | .ok (.added false), _ => true
  | .ok _, .add entry => b.declared.contains entry.id
  | .ok _, .build => false

section Act

variable {b : TreeBuilder κ α}

theorem act_add (b : TreeBuilder κ α) (entry : Entry κ α) : b.act (.add entry) =
    match b.add entry with
    | .ok addition => (⟨.ok (.added addition.fits), addition.notes, addition.builder.rootId⟩, addition.builder)
    | .error e => (⟨.error e, [], b.rootId⟩, b) := by
  rw [act, Action.steps, from_bind, from_addSteps]
  cases b.add entry with
  | ok addition => rfl
  | error e => rfl

theorem act_build (b : TreeBuilder κ α) : b.act .build =
    match b.build with
    | .ok completion => (⟨.ok (.tree completion.tree), completion.notes, completion.builder.rootId⟩, completion.builder)
    | .error e => (⟨.error e, [], b.rootId⟩, b) := by
  rw [act, Action.steps, from_bind, from_buildSteps]
  cases b.build with
  | ok completion => rfl
  | error e => rfl

/-- What adding an entry leaves is what offering it does. -/
theorem act_add_snd (entry : Entry κ α) : (b.act (.add entry)).2 = b.offer entry := by
  rw [act_add, offer]
  cases b.add entry with
  | ok addition => rfl
  | error e => rfl

theorem isIdle_add (entry : Entry κ α) : b.isIdle (.add entry) = !b.accepts entry := by
  unfold isIdle accepts
  rcases add_cases b entry with ⟨_, hadd⟩ | ⟨_, _, hadd⟩ | ⟨_, _, hold, hadd⟩ | ⟨_, _, _, _, hadd⟩ |
    ⟨_, _, hnew, _, _, hadd⟩
  · simp [act_add, hadd]
  · simp [act_add, hadd]
  · simp [act_add, hadd, Table.contains_iff_mem_keys, hold]
  · simp [act_add, hadd]
  · simp [act_add, hadd, ← Bool.not_eq_true, Table.contains_iff_mem_keys, hnew]

theorem isIdle_build : b.isIdle .build = b.built := by
  unfold isIdle
  cases hbuilt : b.built with
  | true => simp [act_build, build, hbuilt]
  | false => simp [act_build, build_eq_ok hbuilt]

/-- What an idle action leaves is the builder as it was. -/
theorem act_of_isIdle {action : Action κ α} (h : b.isIdle action = true) : (b.act action).2 = b := by
  cases action with
  | add entry =>
    rw [isIdle_add, Bool.not_eq_true'] at h
    rw [act_add_snd, offer_of_not_accepts h]
  | build =>
    rw [isIdle_build] at h
    rw [act_build, build, if_pos h]

/-- An action fails after the tree was finished, or for want of a value. -/
theorem failure_cases {action : Action κ α} {e : Failure} (h : (b.act action).1.answer = .error e) :
    (b.built = true ∧ e = .alreadyBuilt) ∨ ∃ entry, action = .add entry ∧ entry.value = none ∧ e = .noValue := by
  cases action with
  | add entry =>
    rw [act_add] at h
    rcases add_cases b entry with ⟨hbuilt, hadd⟩ | ⟨_, _, hadd⟩ | ⟨_, _, _, hadd⟩ | ⟨_, _, _, hvalue, hadd⟩ |
      ⟨_, _, _, _, _, hadd⟩
    all_goals simp only [hadd] at h
    · exact .inl ⟨hbuilt, (Except.error.inj h).symm⟩
    · cases h
    · cases h
    · exact .inr ⟨entry, rfl, hvalue, (Except.error.inj h).symm⟩
    · cases h
  | build =>
    cases hbuilt : b.built with
    | true =>
      rw [act_build, build, if_pos hbuilt] at h
      exact .inl ⟨rfl, (Except.error.inj h).symm⟩
    | false =>
      rw [act_build, build_eq_ok hbuilt] at h
      cases h

end Act

/-! ### Without the idle ones -/

/-- An action in a history: whether it was idle, and what it came to. -/
structure Event (κ α : Type) where
  action : Action κ α
  isIdle : Bool
  outcome : Outcome κ α

/-- The builder after some actions. -/
def after (b : TreeBuilder κ α) (actions : List (Action κ α)) : TreeBuilder κ α :=
  actions.foldl (fun b action => (b.act action).2) b

def history (b : TreeBuilder κ α) : List (Action κ α) → List (Event κ α)
  | [] => []
  | action :: actions => ⟨action, b.isIdle action, (b.act action).1⟩ :: (b.act action).2.history actions

/-- The actions that are not idle when they are taken. -/
def effective (b : TreeBuilder κ α) (actions : List (Action κ α)) : List (Action κ α) :=
  ((b.history actions).filter (!·.isIdle)).map (·.action)

section History

variable {b : TreeBuilder κ α} {action : Action κ α}

theorem after_cons (actions : List (Action κ α)) :
    b.after (action :: actions) = (b.act action).2.after actions := rfl

theorem effective_of_isIdle (h : b.isIdle action = true) (actions : List (Action κ α)) :
    b.effective (action :: actions) = b.effective actions := by
  simp [effective, history, h, act_of_isIdle h]

theorem effective_of_not_isIdle (h : b.isIdle action = false) (actions : List (Action κ α)) :
    b.effective (action :: actions) = action :: (b.act action).2.effective actions := by
  simp [effective, history, h]

/-- By induction on the actions, for all builders at once: an idle action is dropped where it stands, and the builder it
leaves is the one it found. -/
theorem after_effective (b : TreeBuilder κ α) (actions : List (Action κ α)) :
    b.after (b.effective actions) = b.after actions := by
  induction actions generalizing b with
  | nil => rfl
  | cons action actions ih =>
    cases h : b.isIdle action with
    | true => rw [effective_of_isIdle h, ih, after_cons, act_of_isIdle h]
    | false => rw [effective_of_not_isIdle h, after_cons, ih, after_cons]

/-- Without the idle actions, the others are what they were and come to the same. -/
theorem history_effective (b : TreeBuilder κ α) (actions : List (Action κ α)) :
    b.history (b.effective actions) = (b.history actions).filter (!·.isIdle) := by
  induction actions generalizing b with
  | nil => rfl
  | cons action actions ih =>
    cases h : b.isIdle action with
    | true =>
      rw [effective_of_isIdle h, ih, history, List.filter_cons_of_neg (by simp [h]), act_of_isIdle h]
    | false =>
      rw [effective_of_not_isIdle h, history, ih, history, List.filter_cons_of_pos (by simp [h])]

end History

/-- Whatever was done with a builder, an action that fails, is refused or repeats an id leaves it as it is, and the only
reasons to fail are that the tree is finished and that a value is missing. So the same actions without the idle ones come
to the same, one by one: the same answers, trees, notes and root ids, and the same builder in the end. -/
theorem idle_leaves_no_trace (b : TreeBuilder κ α) (actions : List (Action κ α)) :
    (∀ action, (b.after actions).isIdle action = true → ((b.after actions).act action).2 = b.after actions) ∧
    (∀ action e, ((b.after actions).act action).1.answer = .error e →
      ((b.after actions).built = true ∧ e = .alreadyBuilt) ∨
        ∃ entry, action = .add entry ∧ entry.value = none ∧ e = .noValue) ∧
    b.history (b.effective actions) = (b.history actions).filter (!·.isIdle) ∧
    b.after (b.effective actions) = b.after actions :=
  ⟨fun _ => act_of_isIdle, fun _ _ => failure_cases, history_effective b actions, after_effective b actions⟩

/-- A missing value, a node below itself, a node that comes twice and all after the tree is finished are idle. -/
example : ((⟨"t", none, {}, .empty, .empty, false⟩ : TreeBuilder Nat Nat).history [.add ⟨none, some 1, none⟩,
    .add ⟨some 2, some 1, some 10⟩, .add ⟨some 1, some 1, some 20⟩, .add ⟨none, some 2, some 30⟩,
    .add ⟨none, some 1, some 40⟩, .build, .build]).map (·.isIdle) =
      [true, false, true, false, true, false, true] := by decide

end TreeBuilder

end ServiceMap
