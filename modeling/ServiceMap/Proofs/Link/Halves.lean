import ServiceMap.Proofs.Link.RemoteCall
import ServiceMap.Proofs.Span.Identified
import ServiceMap.Proofs.Tree.Renamed

/-!
# Shared ids and split ids

Tools differ in whether the two halves of a remote call share one span id or the server half has an id of its own below
the client half. A trace with shared ids is split by giving each server half a fresh id, and the spans below it with it.
The trees correspond node by node, and what a node shows is the same on both sides: the one place where ids decide, the
question whether the nearest remote ancestor is the client half of the same call, is answered by the span's own id before
and by its parent id after. The empty text is no such id: as a parent id it says that there is no parent, so a server half
below it, or spans below a server half that got it, would lose their place.
-/

namespace ServiceMap

/-! ### What a place shows -/

/-- The two places differ at most in ids and in what does not decide about calls. -/
structure Place.Matches (p p' : Place) : Prop where
  kind : p'.span.kind = p.span.kind
  here : p'.span.localService? = p.span.localService?
  there : p'.span.remoteService? = p.span.remoteService?
  isError : p'.span.isError = p.span.isError
  isStart : p'.isStart = p.isStart
  hasChildren : p'.hasChildren = p.hasChildren
  ancestorService? : p'.ancestorService? = p.ancestorService?
  failed : p'.failed = p.failed

namespace Place.Matches

variable {p p' : Place} (h : p.Matches p')
include h

theorem isLocal : p'.span.isLocal = p.span.isLocal := by
  rw [Span.isLocal, Span.isLocal, h.kind, h.here, h.there]

theorem effectiveKind : p'.effectiveKind = p.effectiveKind := by
  rw [Place.effectiveKind, Place.effectiveKind, h.kind, h.isLocal]

theorem unreportedCall? : p'.unreportedCall? = p.unreportedCall? := by
  simp only [Place.unreportedCall?, h.effectiveKind, h.ancestorService?, h.here]

theorem calls_request (parent child : Option String) : (p'.request parent child).calls = (p.request parent child).calls := by
  simp only [Place.calls_request, h.unreportedCall?, h.effectiveKind, h.ancestorService?, h.failed]

theorem calls_messaging (parent child : Option String) :
    (p'.messaging parent child).calls = (p.messaging parent child).calls := by
  cases parent with
  | none => rfl
  | some parent =>
    cases child with
    | none => rfl
    | some child => simp only [Place.messaging, h.isError]

theorem calls_finding : p'.finding.calls = p.finding.calls := by
  simp only [Place.finding, h.kind, h.hasChildren, h.effectiveKind, h.isStart, h.here, h.there]
  split
  · rfl
  · split
    · rfl
    · split
      · rfl
      · exact h.calls_request _ _
    · exact h.calls_request _ _
    · split
      · rfl
      · exact h.calls_messaging _ _
    · exact h.calls_messaging _ _

end Place.Matches

/-! ### Renamed trees of spans -/

/-- The spans become others of the same kind, with the same services, and failed if they were. -/
structure KeepsServices (v : Span → Span) : Prop where
  kind : ∀ span, (v span).kind = span.kind
  here : ∀ span, (v span).localService? = span.localService?
  there : ∀ span, (v span).remoteService? = span.remoteService?
  isError : ∀ span, (v span).isError = span.isError

theorem KeepsServices.isLocal {v : Span → Span} (h : KeepsServices v) (span : Span) :
    (v span).isLocal = span.isLocal := by
  rw [Span.isLocal, Span.isLocal, h.kind, h.here, h.there]

/-- A place with other spans shows the same calls, if the halves of a call are told from other spans as before. -/
theorem Place.calls_finding_map {v : Span → Span} (hv : KeepsServices v) (p : Place)
    (hhalf : ∀ a, p.remoteAncestor = some a → isHalfOf (v p.span) (v a) = isHalfOf p.span a) :
    (finding { p with span := v p.span, remoteAncestor := p.remoteAncestor.map v }).calls = p.finding.calls := by
  have hservice : (p.remoteAncestor.map v).bind Span.localService? = p.ancestorService? := by
    rw [ancestorService?]
    cases p.remoteAncestor with
    | none => rfl
    | some a => exact hv.here a
  have hfailed : failed { p with span := v p.span, remoteAncestor := p.remoteAncestor.map v } = p.failed := by
    rw [failed, failed, ancestorService?, hservice, hv.isError]
    cases ha : p.remoteAncestor with
    | none => rfl
    | some a =>
      cases p.ancestorService? with
      | none => rfl
      | some _ => simp only [Option.map_some, hhalf a ha, hv.isError]
  exact Matches.calls_finding {
    kind := hv.kind p.span
    here := hv.here p.span
    there := hv.there p.span
    isError := hv.isError p.span
    isStart := rfl
    hasChildren := rfl
    ancestorService? := hservice
    failed := hfailed }

theorem SpanTree.Consistent.mem_of_remoteAncestor? {spans : List Span} (h : Consistent spans) {slot : Slot SpanKey}
    {span : Span} (hspan : (finished spans).graph.remoteAncestor? slot = some span) : span ∈ spans := by
  obtain ⟨_, hp⟩ := Graph.exists_of_remoteAncestor? hspan
  exact (h.mem_of_value?_finished hp).1

namespace Graph.Renames

variable {ι ι' : Type} [DecidableEq ι] [DecidableEq ι'] {f : ι → ι'} {v : Span → Span} {g : Graph ι Span}
  {g' : Graph ι' Span} {root : ι} (h : g.Renames f v g') (hg : g.IsTree root)
include h hg

/-- If spans keep their kind, the nearest span with a kind is the same one. -/
theorem remoteAncestor? (hkind : ∀ span, (v span).kind = span.kind) {i : ι} (hi : i ∈ g.nodes.keys) :
    g'.remoteAncestor? (f i) = (g.remoteAncestor? i).map v := by
  have hfound : ∀ a ∈ g.nodes.keys, (g'.node (f a)).value.filter (·.kind != .unset) =
      ((g.node a).value.filter (·.kind != .unset)).map v := by
    intro a ha
    rw [show (g'.node (f a)).value = (g.node a).value.map v from h.value? a ha]
    cases (g.node a).value with
    | none => rfl
    | some span =>
      rw [Option.map_some, Option.filter_some, Option.filter_some, hkind]
      split
      · rfl
      · rfl
  have hsearch : ∀ l : List ι, (∀ a ∈ l, a ∈ g.nodes.keys) →
      (l.map f).findSome? (fun a => (g'.node a).value.filter (·.kind != .unset)) =
        (l.findSome? fun a => (g.node a).value.filter (·.kind != .unset)).map v := by
    intro l hl
    induction l with
    | nil => rfl
    | cons a l ih =>
      rw [List.map_cons, List.findSome?_cons, List.findSome?_cons, hfound a (hl a List.mem_cons_self),
        ih fun b hb => hl b (List.mem_cons_of_mem _ hb)]
      cases (g.node a).value.filter (·.kind != .unset) <;> rfl
  simp only [Graph.remoteAncestor?, findAncestor?_eq, h.ancestors hg hi]
  exact hsearch _ fun a ha => hg.mem_keys_of_mem_ancestorsUpTo ha

variable (hv : KeepsServices v)
include hv

/-- A node shows the same calls as the one it is renamed to, if the halves of a call are told from other spans on both
sides alike. -/
theorem calls_finding {i : ι} (hi : i ∈ g.nodes.keys) (hhalf : ∀ s a, g.value? i = some s → g.remoteAncestor? i = some a →
    Place.isHalfOf (v s) (v a) = Place.isHalfOf s a) :
    (g'.finding (f root) (f i)).calls = (g.finding root i).calls := by
  have hstart : (f i == f root) = (i == root) := by
    rw [Bool.eq_iff_iff, beq_iff_eq, beq_iff_eq]
    exact ⟨h.injective i hi root hg.root_mem, congrArg f⟩
  have hbelow : (g'.children (f i)).isEmpty = (g.children i).isEmpty := by
    rw [h.children i hi, List.isEmpty_map]
  rw [Graph.finding, Graph.finding, h.value? i hi]
  cases hvalue : g.value? i with
  | none => rfl
  | some s =>
    have hnearest : (if (v s).isLocal then none else g'.remoteAncestor? (f i)) =
        (if s.isLocal then none else g.remoteAncestor? i).map v := by
      rw [hv.isLocal, h.remoteAncestor? hg hv.kind hi]
      split
      · rfl
      · rfl
    have hfound : ∀ a, (if s.isLocal then none else g.remoteAncestor? i) = some a → g.remoteAncestor? i = some a := by
      intro a ha
      split at ha
      · simp at ha
      · exact ha
    simp only [Option.map_some, hstart, hbelow, hnearest]
    exact Place.calls_finding_map hv ⟨s, _, _, _⟩ fun a ha => hhalf s a hvalue (hfound a ha)

theorem calls_eq (hg' : g'.IsTree (f root)) (hhalf : ∀ i s a, g.value? i = some s → g.remoteAncestor? i = some a →
    Place.isHalfOf (v s) (v a) = Place.isHalfOf s a) : g'.calls (f root) = g.calls root := by
  rw [Graph.calls, Graph.calls, Graph.findings, Graph.findings, h.breadthFirst hg hg', List.map_map, List.flatMap_map,
    List.flatMap_map]
  apply List.flatMap_congr
  intro i hi
  exact h.calls_finding hg hv (hg.breadthFirst_perm.mem_iff.mp hi) (hhalf i)

end Graph.Renames

/-! ### Splitting shared ids -/

namespace SpanTree

/-- A span of a trace in which server halves get ids of their own. A server half is then below the id that it shared, and
no longer flagged; another span that named this id as its parent is below the new one. -/
def splitSpan (fresh : String → String) (spans : List Span) (span : Span) : Span :=
  if isServerHalf spans span then { span with id := fresh span.id, parentId := some span.id, shared := false }
  else { span with parentId := span.parentId.map fun id => if isSharedId spans id then fresh id else id }

/-- The trace in which server halves have ids of their own. -/
def split (fresh : String → String) (spans : List Span) : List Span := spans.map (splitSpan fresh spans)

/-- A key in the trace with split ids. -/
def splitKey (fresh : String → String) (key : SpanKey) : SpanKey := ⟨if key.serverHalf then fresh key.id else key.id, false⟩

/-- The ids for server halves are new to the trace and differ from each other. -/
structure IsFresh (fresh : String → String) (spans : List Span) : Prop where
  injective : ∀ b c, isSharedId spans b = true → isSharedId spans c = true → fresh b = fresh c → b = c
  id_ne : ∀ b, isSharedId spans b = true → ∀ s ∈ spans, s.id ≠ fresh b
  parentId_ne : ∀ b, isSharedId spans b = true → ∀ s ∈ spans, s.parentId ≠ some (fresh b)

def spansWith (spans : List Span) (kind : SpanKind) (id : String) : List Span :=
  spans.filter fun s => s.kind == kind && s.id == id

/-- Each id of a server half is that of exactly one client and one server, in a consistent trace for which the ids are
fresh. -/
structure IsSplittable (fresh : String → String) (spans : List Span) : Prop extends Consistent spans where
  paired : ∀ b, isSharedId spans b = true →
    (spansWith spans .client b).length = 1 ∧ (spansWith spans .server b).length = 1
  isFresh : IsFresh fresh spans

/-- Neither the ids of server halves nor the fresh ones are the empty text. -/
def AreNamed (fresh : String → String) (spans : List Span) : Prop :=
  ∀ b, isSharedId spans b = true → b ≠ "" ∧ fresh b ≠ ""

section SplitSpan

variable (fresh : String → String) (spans : List Span)

/-- Splitting changes nothing of a span but its ids and whether it is flagged. -/
theorem splitSpan_keeps {β : Type} (read : Span → β)
    (hread : ∀ span id parentId shared, read { span with id := id, parentId := parentId, shared := shared } = read span)
    (span : Span) : read (splitSpan fresh spans span) = read span := by
  rw [splitSpan]
  split
  · exact hread span _ _ _
  · exact hread span span.id _ span.shared

theorem keepsServices_splitSpan : KeepsServices (splitSpan fresh spans) where
  kind := splitSpan_keeps fresh spans Span.kind fun _ _ _ _ => rfl
  here := splitSpan_keeps fresh spans Span.localService? fun _ _ _ _ => rfl
  there := splitSpan_keeps fresh spans Span.remoteService? fun _ _ _ _ => rfl
  isError := splitSpan_keeps fresh spans Span.isError fun _ _ _ _ => rfl

variable {spans} {span : Span}

theorem splitSpan_of_half (h : isServerHalf spans span = true) : splitSpan fresh spans span =
    { span with id := fresh span.id, parentId := some span.id, shared := false } := by
  rw [splitSpan, if_pos h]

theorem splitSpan_of_not_half (h : isServerHalf spans span = false) : splitSpan fresh spans span =
    { span with parentId := span.parentId.map fun id => if isSharedId spans id then fresh id else id } := by
  rw [splitSpan, if_neg (by simp [h])]

end SplitSpan

theorem isServerHalf_of_kind_ne {spans : List Span} {span : Span} (h : span.kind ≠ .server) :
    isServerHalf spans span = false := by
  simp [isServerHalf, h]

section Split

variable {fresh : String → String} {spans : List Span} (hfresh : IsFresh fresh spans)
include hfresh

theorem isSharedId_split (id : String) : isSharedId (split fresh spans) id = false := by
  rw [← Bool.not_eq_true, isSharedId_iff]
  rintro ⟨_, hs', hkind, hid, hreason⟩
  obtain ⟨s, hs, rfl⟩ := List.mem_map.mp hs'
  rw [(keepsServices_splitSpan fresh spans).kind] at hkind
  have hother : ∀ {c}, c ∈ split fresh spans → c.kind ≠ .server → ∃ d ∈ spans, d.kind ≠ .server ∧ d.id = c.id := by
    intro c hc hckind
    obtain ⟨d, hd, rfl⟩ := List.mem_map.mp hc
    rw [(keepsServices_splitSpan fresh spans).kind] at hckind
    exact ⟨d, hd, hckind, by rw [splitSpan_of_not_half fresh (isServerHalf_of_kind_ne hckind)]⟩
  cases hhalf : isServerHalf spans s with
  | true =>
    rw [splitSpan_of_half fresh hhalf] at hid hreason
    rcases hreason with hshared | ⟨c, hc, hckind, hcid⟩
    · simp at hshared
    · obtain ⟨d, hd, _, hdid⟩ := hother hc hckind
      exact hfresh.id_ne s.id (isServerHalf_iff.mp hhalf).2 d hd (hdid.trans (hcid.trans hid.symm))
  | false =>
    rw [splitSpan_of_not_half fresh hhalf] at hid hreason
    have hnot : isSharedId spans s.id ≠ true := fun hshared => by
      rw [isServerHalf_iff.mpr ⟨hkind, hshared⟩] at hhalf
      simp at hhalf
    rw [Ne, isSharedId_iff] at hnot
    refine hnot ⟨s, hs, hkind, rfl, ?_⟩
    rcases hreason with hshared | ⟨c, hc, hckind, hcid⟩
    · exact .inl hshared
    · obtain ⟨d, hd, hdkind, hdid⟩ := hother hc hckind
      exact .inr ⟨d, hd, hdkind, hdid.trans (hcid.trans hid.symm)⟩

theorem isServerHalf_split (span : Span) : isServerHalf (split fresh spans) span = false := by
  rw [isServerHalf, isSharedId_split hfresh, Bool.and_false]

theorem key_split (span : Span) :
    key (split fresh spans) (splitSpan fresh spans span) = splitKey fresh (key spans span) := by
  rw [key, isServerHalf_split hfresh, key, splitKey]
  cases hhalf : isServerHalf spans span with
  | true => rw [splitSpan_of_half fresh hhalf, if_pos rfl]
  | false => rw [splitSpan_of_not_half fresh hhalf, if_neg Bool.false_ne_true]

section Named

variable (hnamed : AreNamed fresh spans)
include hnamed

omit hfresh in
/-- A span that is no server half names the renamed parent. -/
theorem namedParent?_splitSpan {span : Span} (hhalf : isServerHalf spans span = false) :
    namedParent? (splitSpan fresh spans span) =
      (namedParent? span).map fun id => if isSharedId spans id then fresh id else id := by
  rw [splitSpan_of_not_half fresh hhalf, namedParent?, namedParent?]
  cases span.parentId with
  | none => rfl
  | some b =>
    cases hshared : isSharedId spans b with
    | true =>
      obtain ⟨hne, hnew⟩ := hnamed b hshared
      simp [Option.filter_some, hshared, hne, hnew]
    | false =>
      by_cases hb : b = ""
      · simp [Option.filter_some, hb, hb ▸ hshared]
      · simp [Option.filter_some, hshared, hb]

theorem parentKey_split (span : Span) :
    parentKey (split fresh spans) (splitSpan fresh spans span) = (parentKey spans span).map (splitKey fresh) := by
  have hplain : ∀ s : Span, parentKey (split fresh spans) s = (namedParent? s).map fun id => ⟨id, false⟩ := by
    intro s
    rw [parentKey, if_neg (by simp [isServerHalf_split hfresh])]
    congr 1
    funext id
    rw [isSharedId_split hfresh]
  rw [hplain, parentKey]
  cases hhalf : isServerHalf spans span with
  | true =>
    have hnamed : namedParent? (splitSpan fresh spans span) = some span.id := by
      rw [namedParent?_eq_some_iff, splitSpan_of_half fresh hhalf]
      exact ⟨rfl, (hnamed span.id (isServerHalf_iff.mp hhalf).2).1⟩
    rw [hnamed, if_pos rfl, Option.map_some, Option.map_some, splitKey, if_neg Bool.false_ne_true]
  | false =>
    rw [namedParent?_splitSpan hnamed hhalf, if_neg Bool.false_ne_true, Option.map_map, Option.map_map]
    rfl

/-- The entries of the split trace are those of the trace under other keys. -/
theorem entries_split :
    entries (split fresh spans) = (entries spans).map (Entry.map (splitKey fresh) (splitSpan fresh spans)) := by
  rw [entries, entries, List.map_map]
  nth_rewrite 3 [split]
  rw [List.map_map]
  apply List.map_congr_left
  intro span _
  simp only [Function.comp_apply, Entry.map, Option.map_some, key_split hfresh, parentKey_split hfresh hnamed]

end Named

omit hfresh in
/-- The key of a server half has a shared id, and any other key the id or the parent id of a span. -/
theorem cases_of_occurs {k : SpanKey} (h : Entry.Occurs (entries spans) k) :
    (k.serverHalf = true ∧ isSharedId spans k.id = true) ∨
      (k.serverHalf = false ∧ ∃ s ∈ spans, s.id = k.id ∨ s.parentId = some k.id) := by
  obtain ⟨e, he, hk⟩ := h
  obtain ⟨s, hs, rfl⟩ := List.mem_map.mp he
  rcases hk with hk | hk
  · obtain rfl := Option.some.inj hk
    cases hhalf : isServerHalf spans s with
    | true => exact .inl ⟨hhalf, (isServerHalf_iff.mp hhalf).2⟩
    | false => exact .inr ⟨hhalf, s, hs, .inl rfl⟩
  · simp only [parentKey] at hk
    split at hk
    · obtain rfl := Option.some.inj hk
      exact .inr ⟨rfl, s, hs, .inl rfl⟩
    · obtain ⟨id, hid, rfl⟩ := Option.map_eq_some_iff.mp hk
      have hparent := (namedParent?_eq_some_iff.mp hid).1
      cases isSharedId spans id with
      | true => exact .inl ⟨rfl, rfl⟩
      | false => exact .inr ⟨rfl, s, hs, .inr hparent⟩

/-- No fresh id is an id or a parent id of the trace. -/
theorem fresh_ne_of_occurs {b : String} (hb : isSharedId spans b = true) {id : String}
    (hid : ∃ s ∈ spans, s.id = id ∨ s.parentId = some id) : fresh b ≠ id := by
  intro heq
  obtain ⟨s, hs, hsid | hsid⟩ := hid
  · exact hfresh.id_ne b hb s hs (hsid.trans heq.symm)
  · exact hfresh.parentId_ne b hb s hs (heq ▸ hsid)

theorem separates_splitKey : Entry.Separates (splitKey fresh) (entries spans) := by
  intro ⟨i, half⟩ ⟨j, half'⟩ hi hj heq
  rcases cases_of_occurs hi with ⟨rfl, hishared⟩ | ⟨rfl, hisome⟩
  · rcases cases_of_occurs hj with ⟨rfl, hjshared⟩ | ⟨rfl, hjsome⟩
    · have hsame : fresh i = fresh j := congrArg SpanKey.id heq
      rw [hfresh.injective i j hishared hjshared hsame]
    · exact absurd (congrArg SpanKey.id heq) (fresh_ne_of_occurs hfresh hishared hjsome)
  · rcases cases_of_occurs hj with ⟨rfl, hjshared⟩ | ⟨rfl, hjsome⟩
    · exact absurd (congrArg SpanKey.id heq).symm (fresh_ne_of_occurs hfresh hjshared hisome)
    · have hsame : i = j := congrArg SpanKey.id heq
      rw [hsame]

end Split

/-! ### The nearest remote ancestor in a trace -/

section Ancestor

variable {spans : List Span} (h : Consistent spans)
include h

theorem Consistent.remoteAncestor?_of_parentKey {span parent : Span} (hspan : span ∈ spans) (hparent : parent ∈ spans)
    (hnames : parentKey spans span = some (key spans parent)) (hkind : parent.kind ≠ .unset) :
    (finished spans).graph.remoteAncestor? (slotOf spans span) = some parent :=
  Graph.remoteAncestor?_of_parent? (h.parent?_finished hspan hparent hnames) (h.value?_finished hparent) hkind

/-- The server half is the remote ancestor of the spans that name its id as their parent. -/
theorem Consistent.kind_remoteAncestor?_of_shared {span a : Span} (hspan : span ∈ spans)
    (hhalf : isServerHalf spans span = false) {b : String} (hb : namedParent? span = some b) (hshared : isSharedId spans b = true)
    (ha : (finished spans).graph.remoteAncestor? (slotOf spans span) = some a) : a.kind = .server := by
  obtain ⟨q, hq, hkind, rfl, _⟩ := isSharedId_iff.mp hshared
  have hnames : parentKey spans span = some (key spans q) := by
    simp [parentKey, hhalf, hb, hshared, key, isServerHalf_iff.mpr ⟨hkind, hshared⟩]
  have hfound := h.remoteAncestor?_of_parentKey hspan hq hnames (by simp [hkind])
  rw [hfound, Option.some.injEq] at ha
  exact ha ▸ hkind

/-- The client half is the remote ancestor of the server half. -/
theorem Consistent.id_remoteAncestor?_of_half {span a : Span} (hspan : span ∈ spans)
    (hhalf : isServerHalf spans span = true) (hclient : (spansWith spans .client span.id).length = 1)
    (ha : (finished spans).graph.remoteAncestor? (slotOf spans span) = some a) : a.id = span.id := by
  obtain ⟨c, hc⟩ := List.length_eq_one_iff.mp hclient
  have hmem : c ∈ spansWith spans .client span.id := hc ▸ List.mem_singleton_self c
  simp only [spansWith, List.mem_filter, Bool.and_eq_true, beq_iff_eq] at hmem
  obtain ⟨hcmem, hckind, hcid⟩ := hmem
  have hplain : isServerHalf spans c = false := isServerHalf_of_kind_ne (by simp [hckind])
  have hnames : parentKey spans span = some (key spans c) := by
    simp [parentKey, hhalf, key, hcid, hplain]
  have hfound := h.remoteAncestor?_of_parentKey hspan hcmem hnames (by simp [hckind])
  rw [hfound, Option.some.injEq] at ha
  exact ha ▸ hcid

end Ancestor

section Splittable

variable {fresh : String → String} {spans : List Span} (h : IsSplittable fresh spans) (hnamed : AreNamed fresh spans)
include h hnamed

/-- Whether the nearest remote ancestor is the client half of the same call is the same on both sides. -/
theorem isHalfOf_splitSpan {slot : Slot SpanKey} {s a : Span} (hs : (finished spans).graph.value? slot = some s)
    (ha : (finished spans).graph.remoteAncestor? slot = some a) :
    Place.isHalfOf (splitSpan fresh spans s) (splitSpan fresh spans a) = Place.isHalfOf s a := by
  obtain ⟨hsmem, rfl⟩ := h.mem_of_value?_finished hs
  have hamem : a ∈ spans := h.mem_of_remoteAncestor? ha
  by_cases hclient : a.kind = .client
  · have hakeep : (splitSpan fresh spans a).id = a.id := by
      rw [splitSpan_of_not_half fresh (isServerHalf_of_kind_ne (by simp [hclient]))]
    rw [Place.isHalfOf, Place.isHalfOf, (keepsServices_splitSpan fresh spans).kind, hakeep]
    cases hhalf : isServerHalf spans s with
    -- The client half has the own id of a server half before, and its parent id after.
    | true =>
      have hshared := (isServerHalf_iff.mp hhalf).2
      have hid := h.id_remoteAncestor?_of_half hsmem hhalf (h.paired s.id hshared).1 ha
      simp [splitSpan_of_half fresh hhalf, hid]
    -- A span below a server half has that one as its remote ancestor, which is no client.
    | false =>
      have hparent : ((splitSpan fresh spans s).parentId == some a.id) = (s.parentId == some a.id) := by
        rw [splitSpan_of_not_half fresh hhalf]
        cases hb : s.parentId with
        | none => rfl
        | some b =>
          cases hshared : isSharedId spans b with
          | false => simp [hshared]
          | true =>
            have hparent? := namedParent?_eq_some_iff.mpr ⟨hb, (hnamed b hshared).1⟩
            have hserver := h.kind_remoteAncestor?_of_shared hsmem hhalf hparent? hshared ha
            simp [hclient] at hserver
      have hid : (splitSpan fresh spans s).id = s.id := by rw [splitSpan_of_not_half fresh hhalf]
      rw [hparent, hid]
  · have hkind : (splitSpan fresh spans a).kind ≠ .client := by
      rwa [(keepsServices_splitSpan fresh spans).kind]
    rw [Place.isHalfOf, Place.isHalfOf, beq_eq_false_iff_ne.mpr hclient, beq_eq_false_iff_ne.mpr hkind, Bool.false_and,
      Bool.false_and]

theorem traceCalls_split : traceCalls (split fresh spans) = traceCalls spans := by
  have hseparates := separates_splitKey h.isFresh
  have hrenames := h.entries.filled_renames (v := splitSpan fresh spans) hseparates
    ((spans.head?.map (·.traceId)).getD "") (((split fresh spans).head?.map (·.traceId)).getD "")
  have hroot := h.entries.rootSlot_filled_map (v := splitSpan fresh spans) hseparates
    ((spans.head?.map (·.traceId)).getD "") (((split fresh spans).head?.map (·.traceId)).getD "")
  rw [← entries_split h.isFresh hnamed] at hrenames hroot
  have htree := isTree_finished (split fresh spans)
  have hroot' : (finished (split fresh spans)).root = (finished spans).root.map (splitKey fresh) := hroot
  rw [hroot'] at htree
  rw [traceCalls, traceCalls, hroot']
  exact Graph.Renames.calls_eq hrenames (isTree_finished spans) (keepsServices_splitSpan fresh spans) htree
    fun _ _ _ hs ha => isHalfOf_splitSpan h hnamed hs ha

end Splittable

/-- What is to be checked of spans whose only shared id is `a`. -/
theorem isSplittable_of_sharedId {fresh : String → String} {spans : List Span} (a : String) (rank : SpanKey → Nat)
    (hkeys : (spans.map (key spans)).Nodup)
    (hrank : ∀ s ∈ spans, ∀ p ∈ parentKey spans s, rank p < rank (key spans s))
    (hserver : ∀ s ∈ spans, s.kind = .server → isSharedId spans s.id = true → s.id = a)
    (hpaired : (spansWith spans .client a).length = 1 ∧ (spansWith spans .server a).length = 1)
    (hfresh : ∀ s ∈ spans, s.id ≠ fresh a ∧ s.parentId ≠ some (fresh a)) : IsSplittable fresh spans := by
  have hshared : ∀ b, isSharedId spans b = true → b = a := by
    intro b hb
    obtain ⟨s, hs, hkind, rfl, _⟩ := isSharedId_iff.mp hb
    exact hserver s hs hkind hb
  refine ⟨⟨hkeys, acyclic_of_rank rank hrank⟩, ?_, ?_, ?_, ?_⟩
  · intro b hb
    exact hshared b hb ▸ hpaired
  · intro b c hb hc _
    rw [hshared b hb, hshared c hc]
  · intro b hb s hs
    exact hshared b hb ▸ (hfresh s hs).1
  · intro b hb s hs
    exact hshared b hb ▸ (hfresh s hs).2

end SpanTree

/-- A trace has the same links, in the same order and with the same counts, whether the halves of its calls share their
ids or the server halves have ids of their own. The fresh ids are not empty, and neither is an id that two halves share;
of spans that were read the latter need not be asked. -/
theorem traceLinks_split {fresh : String → String} {spans : List Span} (h : SpanTree.IsSplittable fresh spans)
    (hempty : SpanTree.isSharedId spans "" = false ∨ Span.AreRead spans)
    (hfresh : ∀ b, SpanTree.isSharedId spans b = true → fresh b ≠ "") :
    ∃ links, traceLinks spans = .ok links ∧ traceLinks (SpanTree.split fresh spans) = .ok links := by
  have hshared : SpanTree.isSharedId spans "" = false := hempty.elim id Span.AreRead.isSharedId_empty
  have hnamed : SpanTree.AreNamed fresh spans := by
    intro b hb
    refine ⟨?_, hfresh b hb⟩
    rintro rfl
    simp [hshared] at hb
  refine ⟨_, traceLinks_eq spans, ?_⟩
  rw [traceLinks_eq, SpanTree.traceCalls_split h hnamed]

theorem traceLinks_split_sharedTrace : SpanTree.IsSplittable ("s" ++ ·) sharedTrace ∧
    ∃ links, traceLinks sharedTrace = .ok links ∧ traceLinks (SpanTree.split ("s" ++ ·) sharedTrace) = .ok links := by
  have h : SpanTree.IsSplittable ("s" ++ ·) sharedTrace := by
    apply SpanTree.isSplittable_of_sharedId "a" sharedTraceRank
    all_goals decide
  refine ⟨h, traceLinks_split h (.inl (by decide)) ?_⟩
  intro b _ hempty
  simp at hempty

/-- Below a server of `edge`, a call from `web` to `api` whose halves share the empty text as their id. -/
def emptyIdTrace : List Span := [
  { traceId := "7", id := "r", kind := .server, localEndpoint := some { serviceName := "edge" } },
  { traceId := "7", id := "", parentId := some "r", kind := .client, localEndpoint := some { serviceName := "web" } },
  { traceId := "7", id := "", kind := .server, localEndpoint := some { serviceName := "api" } }]

/-- The same call under another id, and a call from there to `db`. -/
def relayedTrace : List Span := [
  { traceId := "7", id := "r", kind := .server, localEndpoint := some { serviceName := "edge" } },
  { traceId := "7", id := "a", parentId := some "r", kind := .client, localEndpoint := some { serviceName := "web" } },
  { traceId := "7", id := "a", kind := .server, shared := true, localEndpoint := some { serviceName := "api" } },
  { traceId := "7", id := "c", parentId := some "a", kind := .client, localEndpoint := some { serviceName := "api" },
    remoteEndpoint := some { serviceName := "db" } }]

def relayedTraceRank (key : SpanKey) : Nat :=
  if key.id = "r" then 0 else if key.id = "c" then 3 else if key.serverHalf then 2 else 1

/-- With the empty text as the shared id, or as the fresh one, the links differ: the span that names it as its parent is
placed as if it named none. -/
theorem traceLinks_split_emptyIds :
    (SpanTree.IsSplittable ("s" ++ ·) emptyIdTrace ∧ traceLinks emptyIdTrace = .ok [⟨"web", "api", 1, 0⟩] ∧
      traceLinks (SpanTree.split ("s" ++ ·) emptyIdTrace) = .ok [⟨"edge", "web", 1, 0⟩, ⟨"edge", "api", 1, 0⟩]) ∧
    (SpanTree.IsSplittable (fun _ => "") relayedTrace ∧
      traceLinks relayedTrace = .ok [⟨"web", "api", 1, 0⟩, ⟨"api", "db", 1, 0⟩] ∧
      traceLinks (SpanTree.split (fun _ => "") relayedTrace) =
        .ok [⟨"edge", "api", 1, 0⟩, ⟨"api", "db", 1, 0⟩, ⟨"web", "api", 1, 0⟩]) := by
  simp only [traceLinks_eq]
  refine ⟨⟨?_, congrArg Except.ok (by decide +kernel), congrArg Except.ok (by decide +kernel)⟩,
    ?_, congrArg Except.ok (by decide +kernel), congrArg Except.ok (by decide +kernel)⟩
  · apply SpanTree.isSplittable_of_sharedId "" relayedTraceRank
    all_goals decide
  · apply SpanTree.isSplittable_of_sharedId "a" relayedTraceRank
    all_goals decide

end ServiceMap
