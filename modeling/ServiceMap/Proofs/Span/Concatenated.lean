import ServiceMap.Proofs.Results
import ServiceMap.Span.Document

/-!
# Documents in parts

Both readers go through arrays from left to right, keep what each element adds, and stop at the first failure that does
not just pass over a span. So what an array holds can be read in parts: consecutive elements may give way to others that
read the same, and nothing changes for the rest. Zipkin spans may stand in arrays of their own, the lists of an OTLP
request may be spread over several entries, and a span that is passed over may as well be missing.
-/

namespace ServiceMap

open Json (field? fieldOrNull)

/-! ### One reading after the other -/

/-- What two readings give one after the other: the first failure, else all that both have read. -/
def inTurn {α : Type} (first second : Except Failure (List α)) : Except Failure (List α) :=
  match first with
  | .error e => .error e
  | .ok l =>
    match second with
    | .error e => .error e
    | .ok l' => .ok (l ++ l')

section InTurn

variable {α β : Type}

theorem inTurn_eq (first second : Except Failure (List α)) :
    inTurn first second = do return (← first) ++ (← second) := by
  cases first <;> cases second <;> rfl

@[simp] theorem nil_inTurn (second : Except Failure (List α)) : inTurn (.ok []) second = second := by
  cases second <;> rfl

@[simp] theorem inTurn_nil (first : Except Failure (List α)) : inTurn first (.ok []) = first := by
  cases first with
  | error e => rfl
  | ok l => exact congrArg Except.ok (List.append_nil l)

theorem inTurn_assoc (first second third : Except Failure (List α)) :
    inTurn (inTurn first second) third = inTurn first (inTurn second third) := by
  cases first with
  | error e => rfl
  | ok l =>
    cases second with
    | error e => rfl
    | ok l' =>
      cases third with
      | error e => rfl
      | ok l'' => exact congrArg Except.ok (List.append_assoc l l' l'')

/-- What comes before both readings may as well come before each of them. -/
theorem bind_inTurn (start : Except Failure β) (first second : β → Except Failure (List α)) :
    (start >>= fun b => inTurn (first b) (second b)) = inTurn (start >>= first) (start >>= second) := by
  cases start with
  | error e => rfl
  | ok b => rfl

end InTurn

namespace Otlp

variable {α : Type} (read : Json → Except Failure (List α))

theorem collect_nil : collect read [] = .ok [] := rfl

theorem collect_cons (item : Json) (items : List Json) :
    collect read (item :: items) = inTurn (read item) (collect read items) := by
  rw [inTurn_eq]
  simp only [collect, List.mapM_cons, bind_assoc, pure_bind, List.flatten_cons]

theorem collect_singleton (item : Json) : collect read [item] = read item := by
  rw [collect_cons, collect_nil, inTurn_nil]

/-- The elements of two arrays together are read as those of the first one and then those of the second one. -/
theorem collect_append (xs ys : List Json) : collect read (xs ++ ys) = inTurn (collect read xs) (collect read ys) := by
  induction xs with
  | nil => rw [List.nil_append, collect_nil, nil_inTurn]
  | cons item xs ih => rw [List.cons_append, collect_cons, collect_cons, ih, inTurn_assoc]

variable {read}

/-- Elements may give way to others that read the same. -/
theorem collect_exchange {items items' : List Json} (h : collect read items' = collect read items)
    (before after : List Json) :
    collect read (before ++ (items' ++ after)) = collect read (before ++ (items ++ after)) := by
  rw [collect_append, collect_append, collect_append, collect_append, h]

end Otlp

/-! ### Changes of arrays -/

namespace Json

/-- Some consecutive elements have come to stand in an array of their own. -/
inductive Nests : List Json → List Json → Prop where
  | intro (before run after : List Json) : Nests (before ++ (run ++ after)) (before ++ .arr run :: after)

/-- An element has been left out. -/
inductive Omits (item : Json) : List Json → List Json → Prop where
  | intro (before after : List Json) : Omits item (before ++ item :: after) (before ++ after)

/-- A change has been made to an array, or to an array that is an element of it, and so on. -/
inductive AtDepth (change : List Json → List Json → Prop) : List Json → List Json → Prop where
  | here {items items' : List Json} (h : change items items') : AtDepth change items items'
  | inside (before after : List Json) {items items' : List Json} (h : AtDepth change items items') :
      AtDepth change (before ++ .arr items :: after) (before ++ .arr items' :: after)

/-- Objects that differ in one field at most, in which the one holds an array and the other one another array. -/
structure Replaces (name : String) (items items' : List Json) (fields fields' : List (String × Json)) : Prop where
  holds : field? fields name = some (.arr items)
  holds' : field? fields' name = some (.arr items')
  others : ∀ other, other ≠ name → field? fields' other = field? fields other

/-- An entry, which is an object, has been replaced by two that repeat it except for one array, of which each has a part.
The field with the array has a name that depends on the object. -/
inductive Splits (name : List (String × Json) → String) : List Json → List Json → Prop where
  | intro (before after : List Json) {whole first second : List (String × Json)} {xs ys : List Json} (hxs : xs ≠ [])
      (hys : ys ≠ []) (hfirst : Replaces (name whole) (xs ++ ys) xs whole first)
      (hsecond : Replaces (name whole) (xs ++ ys) ys whole second) :
      Splits name (before ++ .obj whole :: after) (before ++ .obj first :: .obj second :: after)

/-- A change has been made to the array in one field of an entry. -/
inductive InEntry (name : List (String × Json) → String) (change : List Json → List Json → Prop) :
    List Json → List Json → Prop where
  | intro (before after : List Json) {fields fields' : List (String × Json)} {items items' : List Json}
      (h : change items items') (hfields : Replaces (name fields) items items' fields fields') :
      InEntry name change (before ++ .obj fields :: after) (before ++ .obj fields' :: after)

variable {name : List (String × Json) → String} {change : List Json → List Json → Prop} {items items' : List Json}

theorem Splits.ne_nil (h : Splits name items items') : items' ≠ [] := by
  cases h
  simp

theorem InEntry.ne_nil (h : InEntry name change items items') : items' ≠ [] := by
  cases h
  simp

theorem Replaces.fieldOrNull_eq {name other : String} {items items' : List Json} {fields fields' : List (String × Json)}
    (h : Replaces name items items' fields fields') (hother : other ≠ name) :
    fieldOrNull fields' other = fieldOrNull fields other := by
  rw [fieldOrNull, fieldOrNull, h.others other hother]

/-- Objects with no field but the one with the array. -/
theorem Replaces.single (name : String) (items items' : List Json) :
    Replaces name items items' [(name, .arr items)] [(name, .arr items')] where
  holds := by simp [field?]
  holds' := by simp [field?]
  others other hother := by simp [field?, List.lookup_cons, beq_eq_false_iff_ne.mpr hother]

section Collect

open Otlp (collect)

variable {α : Type} {read : Json → Except Failure (List α)}

theorem Omits.collect_eq {item : Json} (hitem : read item = .ok []) (h : Omits item items items') :
    collect read items' = collect read items := by
  obtain ⟨before, after⟩ := h
  have hnone : collect read [] = collect read [item] := by rw [Otlp.collect_nil, Otlp.collect_singleton, hitem]
  exact Otlp.collect_exchange hnone before after

theorem Splits.collect_eq
    (hread : ∀ whole first second xs ys, xs ≠ [] → ys ≠ [] → Replaces (name whole) (xs ++ ys) xs whole first →
      Replaces (name whole) (xs ++ ys) ys whole second → read (.obj whole) = inTurn (read (.obj first)) (read (.obj second)))
    (h : Splits name items items') : collect read items' = collect read items := by
  obtain @⟨before, after, whole, first, second, xs, ys, hxs, hys, hfirst, hsecond⟩ := h
  have hentries : collect read [.obj first, .obj second] = collect read [.obj whole] := by
    rw [Otlp.collect_cons, Otlp.collect_singleton, Otlp.collect_singleton,
      hread whole first second xs ys hxs hys hfirst hsecond]
  exact Otlp.collect_exchange hentries before after

theorem InEntry.collect_eq
    (hread : ∀ fields fields' items items', change items items' → Replaces (name fields) items items' fields fields' →
      read (.obj fields') = read (.obj fields)) (h : InEntry name change items items') :
    collect read items' = collect read items := by
  obtain @⟨before, after, fields, fields', _, _, hchange, hfields⟩ := h
  have hentry : collect read [.obj fields'] = collect read [.obj fields] := by
    rw [Otlp.collect_singleton, Otlp.collect_singleton, hread fields fields' _ _ hchange hfields]
  exact Otlp.collect_exchange hentry before after

end Collect

end Json

/-! ### Zipkin spans -/

namespace Zipkin

open Json (Nests Omits AtDepth)

theorem readSpans_eq_collect (items : List Json) : readSpans items = Otlp.collect readElement items := by
  induction items with
  | nil => rw [readSpans, Otlp.collect_nil]
  | cons item items ih => rw [readSpans, Otlp.collect_cons, inTurn_eq, ih]

theorem readSpans_append (xs ys : List Json) : readSpans (xs ++ ys) = inTurn (readSpans xs) (readSpans ys) := by
  simp only [readSpans_eq_collect, Otlp.collect_append]

theorem readSpans_nests {items items' : List Json} (h : Nests items items') : readSpans items' = readSpans items := by
  obtain ⟨before, run, after⟩ := h
  have hrun : Otlp.collect readElement [.arr run] = Otlp.collect readElement run := by
    rw [Otlp.collect_singleton, readElement, readSpans_eq_collect]
  rw [readSpans_eq_collect, readSpans_eq_collect]
  exact Otlp.collect_exchange hrun before after

/-- A change that makes no difference to an array makes none when the array stands in others. -/
theorem readSpans_atDepth {change : List Json → List Json → Prop}
    (hchange : ∀ items items', change items items' → readSpans items' = readSpans items) {items items' : List Json}
    (h : AtDepth change items items') : readSpans items' = readSpans items := by
  induction h with
  | here h => exact hchange _ _ h
  | @inside before after items items' _ ih =>
    have hitem : Otlp.collect readElement [.arr items'] = Otlp.collect readElement [.arr items] := by
      rw [Otlp.collect_singleton, Otlp.collect_singleton, readElement, readElement, ih]
    rw [readSpans_eq_collect, readSpans_eq_collect]
    exact Otlp.collect_exchange hitem before after

end Zipkin

/-! ### OTLP requests -/

namespace Otlp

open Json (Replaces Splits InEntry Omits)

/-- The request has these resources. -/
def HasResources (fields : List (String × Json)) (resources : List Json) : Prop :=
  (field? fields "resource_spans").getD (fieldOrNull fields "resourceSpans") = .arr resources

/-- The name of the field in which a resource has its scopes. -/
def scopesName (fields : List (String × Json)) : String :=
  if (fieldOrNull fields "scope_spans").isBlank then "scopeSpans" else "scope_spans"

/-- The name of the field in which a scope has its spans. -/
def spansName (_ : List (String × Json)) : String := "spans"

theorem readRequest_of_resources {fields : List (String × Json)} {resources : List Json}
    (h : HasResources fields resources) : readRequest fields = collect readResource resources := by
  rw [readRequest, h]

theorem readScope_of_spans {fields : List (String × Json)} {spans : List Json}
    (h : field? fields "spans" = some (.arr spans)) (localService : String) :
    readScope localService (.obj fields) = collect (readElement localService) spans := by
  rw [readScope, fieldOrNull, h]
  rfl

theorem readResource_of_scopes {fields : List (String × Json)} {scopes : List Json}
    (h : field? fields (scopesName fields) = some (.arr scopes)) : readResource (.obj fields) =
      serviceOf (fieldOrNull fields "resource") >>= fun localService => collect (readScope localService) scopes := by
  have hscopes : (fieldOrNull fields "scope_spans").orElse (fieldOrNull fields "scopeSpans") = .arr scopes := by
    rw [Json.orElse]
    rw [scopesName] at h
    split
    · rename_i hblank
      rw [if_pos hblank] at h
      rw [fieldOrNull, h, Option.getD_some]
    · rename_i hgiven
      rw [if_neg hgiven] at h
      rw [fieldOrNull, h, Option.getD_some]
  rw [readResource, hscopes]
  rfl

/-- With other scopes, but some, the field in which a resource has them is still the same. -/
theorem scopesName_of_replaces {fields fields' : List (String × Json)} {scopes scopes' : List Json}
    (h : Replaces (scopesName fields) scopes scopes' fields fields') (hsome : scopes' ≠ []) :
    scopesName fields' = scopesName fields := by
  by_cases hblank : (fieldOrNull fields "scope_spans").isBlank = true
  · have hname : scopesName fields = "scopeSpans" := if_pos hblank
    rw [hname] at h ⊢
    rw [scopesName, h.fieldOrNull_eq (by decide), if_pos hblank]
  · have hname : scopesName fields = "scope_spans" := if_neg hblank
    rw [hname] at h ⊢
    -- Without scopes the field would count as not given, and the other name as the one that counts.
    have hgiven : (fieldOrNull fields' "scope_spans").isBlank = false := by
      rw [fieldOrNull, h.holds', Option.getD_some]
      simpa [Json.isBlank] using hsome
    rw [scopesName, hgiven, if_neg Bool.false_ne_true]

/-- What a resource with other scopes adds: its service is the same one. -/
theorem readResource_of_replaces {fields fields' : List (String × Json)} {scopes scopes' : List Json}
    (h : Replaces (scopesName fields) scopes scopes' fields fields') (hsome : scopes' ≠ []) :
    readResource (.obj fields') =
      serviceOf (fieldOrNull fields "resource") >>= fun localService => collect (readScope localService) scopes' := by
  have hresource : "resource" ≠ scopesName fields := by
    rw [scopesName]
    split
    · decide
    · decide
  rw [readResource_of_scopes (scopesName_of_replaces h hsome ▸ h.holds'), h.fieldOrNull_eq hresource]

theorem readResources_splits {resources resources' : List Json} (h : Splits scopesName resources resources') :
    collect readResource resources' = collect readResource resources := by
  refine h.collect_eq fun whole first second xs ys hxs hys hfirst hsecond => ?_
  rw [readResource_of_scopes hfirst.holds, readResource_of_replaces hfirst hxs, readResource_of_replaces hsecond hys,
    ← bind_inTurn]
  simp only [collect_append]

/-- A change that makes no difference to scopes, whatever the service, makes none to the resource. -/
theorem readResources_inEntry {change : List Json → List Json → Prop}
    (hchange : ∀ localService scopes scopes', change scopes scopes' →
      collect (readScope localService) scopes' = collect (readScope localService) scopes)
    (hsome : ∀ scopes scopes', change scopes scopes' → scopes' ≠ []) {resources resources' : List Json}
    (h : InEntry scopesName change resources resources') :
    collect readResource resources' = collect readResource resources := by
  refine h.collect_eq fun fields fields' scopes scopes' hscopes hfields => ?_
  rw [readResource_of_replaces hfields (hsome _ _ hscopes), readResource_of_scopes hfields.holds]
  simp only [hchange _ _ _ hscopes]

theorem readScopes_splits (localService : String) {scopes scopes' : List Json} (h : Splits spansName scopes scopes') :
    collect (readScope localService) scopes' = collect (readScope localService) scopes := by
  refine h.collect_eq fun whole first second xs ys _ _ hfirst hsecond => ?_
  rw [readScope_of_spans hfirst.holds, readScope_of_spans hfirst.holds', readScope_of_spans hsecond.holds', collect_append]

theorem readScopes_inEntry (localService : String) {change : List Json → List Json → Prop}
    (hchange : ∀ spans spans', change spans spans' →
      collect (readElement localService) spans' = collect (readElement localService) spans) {scopes scopes' : List Json}
    (h : InEntry spansName change scopes scopes') :
    collect (readScope localService) scopes' = collect (readScope localService) scopes := by
  refine h.collect_eq fun fields fields' spans spans' hspans hfields => ?_
  rw [readScope_of_spans hfields.holds', readScope_of_spans hfields.holds, hchange _ _ hspans]

/-- The service takes no part in reading a span but that it is noted in the span. -/
theorem readSpan_eq_map (localService other : String) (fields : List (String × Json)) : readSpan localService fields =
    (readSpan other fields).map fun span => { span with localEndpoint := endpointOf localService } := by
  have hbind : ∀ {β : Type} {first : Except Failure β} {next next' : β → Except Failure Span} {f : Span → Span},
      (∀ b, next b = (next' b).map f) → (first >>= next) = (first >>= next').map f := by
    intro β first next next' f hnext
    cases first with
    | error e => rfl
    | ok b => exact hnext b
  rw [readSpan, readSpan]
  split
  · rfl
  · iterate 4 refine hbind fun _ => ?_
    rfl

/-- A span that is passed over is passed over for every service. -/
theorem readElement_of_skipped {localService : String} {fields : List (String × Json)} {e : Failure}
    (h : readSpan localService fields = .error e) (he : e.skipsRecord = true) (other : String) :
    readElement other (.obj fields) = .ok [] := by
  have hother : readSpan other fields = .error e := by
    rw [readSpan_eq_map other localService, h]
    rfl
  rw [readElement, hother, orSkip, if_pos he]

end Otlp

theorem Zipkin.readElement_of_skipped {fields : List (String × Json)} {e : Failure} (h : readSpan fields = .error e)
    (he : e.skipsRecord = true) : readElement (.obj fields) = .ok [] := by
  rw [readElement, h, orSkip, if_pos he]

/-! ### Documents -/

open Json (Nests Omits AtDepth Splits InEntry)
open Otlp (HasResources scopesName spansName)

/-- The reader reads documents in parts: the spans and the failure of a document follow from those of its parts, and how
the parts are put together does not matter. -/
structure ReadsInParts (read : Json → Except Failure (List Span)) : Prop where
  /-- Two arrays together are read one after the other. -/
  append : ∀ xs ys, read (.arr (xs ++ ys)) = inTurn (read (.arr xs)) (read (.arr ys))
  /-- Elements may stand in an array of their own, wherever they are. -/
  nests : ∀ items items', AtDepth Nests items items' → read (.arr items') = read (.arr items)
  /-- An element that is passed over may be missing, wherever it is. -/
  omits : ∀ fields e, Zipkin.readSpan fields = .error e → e.skipsRecord = true →
    ∀ items items', AtDepth (Omits (.obj fields)) items items' → read (.arr items') = read (.arr items)
  /-- The resources of two requests together are read one after the other. -/
  resources_append : ∀ whole first second xs ys, HasResources whole (xs ++ ys) → HasResources first xs →
    HasResources second ys → read (.obj whole) = inTurn (read (.obj first)) (read (.obj second))
  /-- The scopes of a resource may be spread over two resources. -/
  scopes_split : ∀ request request' resources resources', HasResources request resources →
    HasResources request' resources' → Splits scopesName resources resources' →
    read (.obj request') = read (.obj request)
  /-- The spans of a scope may be spread over two scopes. -/
  spans_split : ∀ request request' resources resources', HasResources request resources →
    HasResources request' resources' → InEntry scopesName (Splits spansName) resources resources' →
    read (.obj request') = read (.obj request)
  /-- A span of a scope that is passed over may be missing. -/
  spans_omit : ∀ localService fields e, Otlp.readSpan localService fields = .error e → e.skipsRecord = true →
    ∀ request request' resources resources', HasResources request resources → HasResources request' resources' →
    InEntry scopesName (InEntry spansName (Omits (.obj fields))) resources resources' →
    read (.obj request') = read (.obj request)

namespace Span

theorem ofDocument_of_resources {request request' : List (String × Json)} {resources resources' : List Json}
    (h : HasResources request resources) (h' : HasResources request' resources')
    (hread : Otlp.collect Otlp.readResource resources' = Otlp.collect Otlp.readResource resources) :
    ofDocument (.obj request') = ofDocument (.obj request) := by
  rw [ofDocument, ofDocument, Otlp.readRequest_of_resources h, Otlp.readRequest_of_resources h', hread]

/-- Documents are read in parts, whatever they are: two arrays of Zipkin spans, or the resources of two requests, are read
one after the other, where the first failure is that of the whole. Nested arrays, and lists that are spread over several
entries, are read as if they were in one. A span that is passed over makes no difference to the others. -/
theorem ofDocument_readsInParts : ReadsInParts ofDocument where
  append xs ys := Zipkin.readSpans_append xs ys
  nests items items' h := Zipkin.readSpans_atDepth (fun _ _ => Zipkin.readSpans_nests) h
  omits fields e hspan he items items' h := by
    refine Zipkin.readSpans_atDepth (fun items items' homits => ?_) h
    rw [Zipkin.readSpans_eq_collect, Zipkin.readSpans_eq_collect]
    exact homits.collect_eq (Zipkin.readElement_of_skipped hspan he)
  resources_append whole first second xs ys hwhole hfirst hsecond := by
    rw [ofDocument, ofDocument, ofDocument, Otlp.readRequest_of_resources hwhole, Otlp.readRequest_of_resources hfirst,
      Otlp.readRequest_of_resources hsecond, Otlp.collect_append]
  scopes_split _ _ _ _ h h' hsplits := ofDocument_of_resources h h' (Otlp.readResources_splits hsplits)
  spans_split _ _ _ _ h h' hsplits := by
    apply ofDocument_of_resources h h'
    exact Otlp.readResources_inEntry (fun localService _ _ => Otlp.readScopes_splits localService)
      (fun _ _ => Splits.ne_nil) hsplits
  spans_omit _ fields e hspan he _ _ _ _ h h' homits := by
    apply ofDocument_of_resources h h'
    refine Otlp.readResources_inEntry (fun localService scopes scopes' hscopes => ?_) (fun _ _ => InEntry.ne_nil) homits
    exact Otlp.readScopes_inEntry localService
      (fun _ _ hspans => hspans.collect_eq (Otlp.readElement_of_skipped hspan he localService)) hscopes

/-- A span of a request, with this id. -/
def requestSpan (id : String) : Json := .obj [("traceId", .str "7"), ("spanId", .str id)]

def requestScope (spans : List Json) : List (String × Json) := [("spans", .arr spans)]

def requestResource (scopes : List Json) : List (String × Json) := [("scopeSpans", .arr scopes)]

def requestOf (resources : List Json) : List (String × Json) := [("resourceSpans", .arr resources)]

/-- A request with two scopes reads as one with the scopes in two resources, as one with the spans of a scope in two scopes,
and as one without the span that has no id. -/
theorem ofDocument_readsInParts_requestOf :
    let scope (ids : List String) : Json := .obj (requestScope (ids.map requestSpan))
    let resource (scopes : List Json) : Json := .obj (requestResource scopes)
    let whole := requestOf [resource [scope ["a", "b"], scope ["", "c"]]]
    ofDocument (.obj (requestOf [resource [scope ["a", "b"]], resource [scope ["", "c"]]])) = ofDocument (.obj whole) ∧
    ofDocument (.obj (requestOf [resource [scope ["a"], scope ["b"], scope ["", "c"]]])) = ofDocument (.obj whole) ∧
    ofDocument (.obj (requestOf [resource [scope ["a", "b"], scope ["c"]]])) = ofDocument (.obj whole) := by
  intro scope resource whole
  refine ⟨?_, ?_, ?_⟩
  · exact ofDocument_readsInParts.scopes_split _ _ _ _ rfl rfl
      (.intro [] [] (List.cons_ne_nil _ _) (List.cons_ne_nil _ _)
        (.single "scopeSpans" ([scope ["a", "b"]] ++ [scope ["", "c"]]) [scope ["a", "b"]])
        (.single "scopeSpans" ([scope ["a", "b"]] ++ [scope ["", "c"]]) [scope ["", "c"]]))
  · have hscope : Splits spansName [scope ["a", "b"], scope ["", "c"]] [scope ["a"], scope ["b"], scope ["", "c"]] :=
      .intro [] [scope ["", "c"]] (List.cons_ne_nil _ _) (List.cons_ne_nil _ _)
        (.single "spans" ([requestSpan "a"] ++ [requestSpan "b"]) [requestSpan "a"])
        (.single "spans" ([requestSpan "a"] ++ [requestSpan "b"]) [requestSpan "b"])
    exact ofDocument_readsInParts.spans_split _ _ _ _ rfl rfl (.intro [] [] hscope (.single "scopeSpans" _ _))
  · have hspan : Omits (requestSpan "") [requestSpan "", requestSpan "c"] [requestSpan "c"] := .intro [] [requestSpan "c"]
    have hscope : InEntry spansName (Omits (requestSpan "")) [scope ["a", "b"], scope ["", "c"]]
        [scope ["a", "b"], scope ["c"]] :=
      .intro [scope ["a", "b"]] [] hspan (.single "spans" _ _)
    exact ofDocument_readsInParts.spans_omit "" _ (.spanWithoutId "trace_id" "span_id") (by decide) rfl _ _ _ _ rfl rfl
      (.intro [] [] hscope (.single "scopeSpans" _ _))

end Span

end ServiceMap
