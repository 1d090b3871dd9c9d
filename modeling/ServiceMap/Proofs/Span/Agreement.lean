import ServiceMap.Proofs.Number.Numeral
import ServiceMap.Proofs.Results
import ServiceMap.Proofs.Span.CamelCase
import ServiceMap.Proofs.Span.Encodings

/-!
# Both formats are read as the same spans

What is known of some spans is read as the same spans, in the same order and with the same spans passed over, whether it
was written as an array of Zipkin spans or as an OTLP request, and in whatever dialect. Both readers are shown to find
the span that is meant. It is passed over if its trace id or its id says nothing.
-/

namespace ServiceMap

open Json (field? fieldOrNull)

/-! ### The span that is meant -/

namespace Identifier

theorem normalize_str (s : String) : normalize (.str s) = canonical s := by
  rw [normalize]
  split
  · rename_i hblank
    rw [Json.isBlank, String.isEmpty_iff] at hblank
    rw [hblank]
    decide +kernel
  · rfl

end Identifier

/-- The table of tags that are texts. -/
def tagTable (tags : List (String × String)) : Table AttributeKey Json :=
  ⟨tags.map fun (key, value) => (.text key, .str value)⟩

/-- Texts are different keys if they are different texts. -/
theorem ofList_tagTable {tags : List (String × String)} (h : (tags.map (·.1)).Nodup) :
    Table.ofList (tagTable tags).entries = tagTable tags := by
  apply congrArg Table.mk
  apply Table.entries_ofList_of_pairwise
  rw [tagTable, List.pairwise_map]
  rw [List.nodup_iff_pairwise_ne, List.pairwise_map] at h
  refine h.imp fun hne => ?_
  rw [AttributeKey.text_beq_text]
  exact decide_eq_false hne

def annotationOf (note : Nat × String) : Annotation := { timestamp := note.1, value := .str note.2 }

namespace SpanFacts

variable (facts : SpanFacts)

/-- The id of the parent, if it says something. -/
def canonicalParent? : Option String := (facts.parentId.map Identifier.canonical).filter fun id => !id.isEmpty

/-- The span that is meant. There is none without a trace id or without an id. -/
def span? : Option Span :=
  let traceId := Identifier.canonical facts.traceId
  let id := Identifier.canonical facts.id
  if traceId.isEmpty || id.isEmpty then none
  else some {
    traceId, id
    parentId := facts.canonicalParent?
    kind := facts.kind
    name := facts.name
    timestamp := facts.timestamp
    duration := facts.duration
    localEndpoint := Otlp.endpointOf facts.localService
    remoteEndpoint := Otlp.endpointOf facts.remoteService
    tags := tagTable facts.tags
    annotations := facts.notes.map annotationOf }

/-- What a reader of a single span is to make of the facts, given the names that its format has for the ids. -/
def record (traceIdName idName : String) : Except Failure Span :=
  facts.span?.elim (.error (.spanWithoutId traceIdName idName)) .ok

theorem orSkip_record (traceIdName idName : String) :
    orSkip (facts.record traceIdName idName) = .ok facts.span?.toList := by
  rw [record]
  cases facts.span? <;> rfl

theorem canonicalParent?_eq : facts.canonicalParent? =
    let id := Identifier.normalize ((facts.parentId.map Json.str).getD .null)
    if id.isEmpty then none else some id := by
  cases hparent : facts.parentId with
  | none =>
    rw [canonicalParent?, hparent]
    rfl
  | some id =>
    rw [canonicalParent?, hparent, Option.map_some, Option.map_some, Option.getD_some, Identifier.normalize_str]
    generalize Identifier.canonical id = parent
    rw [Option.filter_some]
    dsimp only
    cases parent.isEmpty <;> rfl

end SpanFacts

namespace Zipkin

theorem fieldOrNull_given (facts : SpanFacts) (name : String) : fieldOrNull (Json.given (spanEntries facts)) name =
    ((spanEntries facts).lookup name).join.getD .null := by
  rw [fieldOrNull, Json.field?_given (nodup_spanEntries facts)]

theorem readEndpoint_endpointJson? (serviceName : String) :
    readEndpoint ((endpointJson? serviceName).getD .null) = .ok (Otlp.endpointOf serviceName) := by
  unfold endpointJson? Otlp.endpointOf
  split
  · rfl
  · have hname : fieldOrNull [("serviceName", .str serviceName)] "serviceName" = .str serviceName := rfl
    rw [Option.getD_some, readEndpoint, hname, Json.orElse_str]
    rfl

theorem readAnnotation_annotationJson {note : Nat × String} (h : note.2 ≠ "") :
    readAnnotation (annotationJson note) = .ok [annotationOf note] := by
  have hvalue : fieldOrNull [("timestamp", .int note.1), ("value", .str note.2)] "value" = .str note.2 := rfl
  have htime : fieldOrNull [("timestamp", .int note.1), ("value", .str note.2)] "timestamp" = .int note.1 := rfl
  rw [annotationJson, readAnnotation, hvalue, htime, Json.isBlank_str_eq_false h, Json.orElse_int]
  rfl

theorem ofJson_kind (kind : SpanKind) : SpanKind.ofJson ((kind.label?.map Json.str).getD .null) = kind := by
  cases kind <;> decide +kernel

theorem readTags_tagFields {tags : List (String × String)} (h : (tags.map (·.1)).Nodup) :
    readTags (.obj (tagFields tags)) = tagTable tags := by
  rw [readTags, tagFields, List.map_map]
  exact ofList_tagTable h

theorem elements_annotations (notes : List (Nat × String)) :
    ((Json.arr (notes.map annotationJson)).orElse (.arr [])).elements = .ok (notes.map annotationJson) := by
  cases notes <;> rfl

theorem mapM_annotationJson {notes : List (Nat × String)} (h : ∀ note ∈ notes, note.2 ≠ "") :
    (notes.map annotationJson).mapM readAnnotation = .ok (notes.map fun note => [annotationOf note]) := by
  rw [List.mapM_map]
  exact mapM_eq_ok fun note hnote => readAnnotation_annotationJson (h note hnote)

theorem fieldOrNull_spanEntries (facts : SpanFacts) :
    let fields := Json.given (spanEntries facts)
    fieldOrNull fields "traceId" = .str facts.traceId ∧ fieldOrNull fields "id" = .str facts.id ∧
      fieldOrNull fields "parentId" = (facts.parentId.map Json.str).getD .null ∧
      fieldOrNull fields "kind" = (facts.kind.label?.map Json.str).getD .null ∧
      fieldOrNull fields "name" = .str facts.name ∧ fieldOrNull fields "timestamp" = .int facts.timestamp ∧
      fieldOrNull fields "duration" = .int facts.duration ∧
      fieldOrNull fields "localEndpoint" = (endpointJson? facts.localService).getD .null ∧
      fieldOrNull fields "remoteEndpoint" = (endpointJson? facts.remoteService).getD .null ∧
      fieldOrNull fields "tags" = .obj (tagFields facts.tags) ∧
      fieldOrNull fields "annotations" = .arr (facts.notes.map annotationJson) ∧
      fieldOrNull fields "shared" = .null := by
  simp only [fieldOrNull_given]
  exact ⟨rfl, rfl, rfl, rfl, rfl, rfl, rfl, rfl, rfl, rfl, rfl, rfl⟩

theorem readSpan_spanEntries {facts : SpanFacts} (h : facts.IsExpressible) :
    readSpan (Json.given (spanEntries facts)) = facts.record "traceId" "id" := by
  obtain ⟨htraceId, hid, hparentId, hkind, hname, htimestamp, hduration, hlocal, hremote, htags, hnotes, hshared⟩ :=
    fieldOrNull_spanEntries facts
  rw [readSpan, htraceId, hid, hparentId, hkind, hname, htimestamp, hduration, hlocal, hremote, htags, hnotes, hshared,
    elements_annotations, Json.orElse_int, Json.orElse_int, Json.orElse_str, readEndpoint_endpointJson?,
    readEndpoint_endpointJson?, ofJson_kind, readTags_tagFields h.distinctTags, Identifier.normalize_str,
    Identifier.normalize_str, SpanFacts.record, SpanFacts.span?, SpanFacts.canonicalParent?_eq]
  generalize Identifier.canonical facts.traceId = traceId
  generalize Identifier.canonical facts.id = id
  split
  · rfl
  · dsimp only [bind, Except.bind]
    rw [mapM_annotationJson fun note hnote => (h.notes note hnote).2]
    dsimp only
    rw [← List.flatMap_def, ← List.map_eq_flatMap]
    rfl

theorem readElement_spanJson {facts : SpanFacts} (h : facts.IsExpressible) :
    readElement (spanJson facts) = .ok facts.span?.toList := by
  rw [spanJson, readElement, readSpan_spanEntries h, SpanFacts.orSkip_record]

theorem readSpans_document {spans : List SpanFacts} (h : ∀ facts ∈ spans, facts.IsExpressible) :
    readSpans (spans.map spanJson) = .ok (spans.filterMap SpanFacts.span?) := by
  induction spans with
  | nil => rfl
  | cons facts spans ih =>
    rw [List.forall_mem_cons] at h
    rw [List.map_cons, readSpans, readElement_spanJson h.1, ih h.2, List.filterMap_cons]
    cases facts.span? <;> rfl

end Zipkin

namespace Otlp

/-! ### Attributes -/

section Attributes

open Attributes

variable (d : Dialect)

theorem extract_text (s : String) :
    extract (.obj [(d.name .typedValue "string_value", .str s)]) = .ok (.str s) := by
  obtain ⟨camelCase, timesAsText, peerAt⟩ := d
  cases camelCase <;> simp only [extract] <;> rfl

theorem addAttribute_attributeJson (table : Table AttributeKey Json) {tag : String × String} (h : tag.1 ≠ "") :
    addAttribute table (d.attributeJson tag) = .ok (table.insert (.text tag.1) (.str tag.2)) := by
  have hkey (v : Json) : fieldOrNull [("key", .str tag.1), ("value", v)] "key" = .str tag.1 := rfl
  have hvalue (v : Json) : field? [("key", .str tag.1), ("value", v)] "value" = some v := rfl
  rw [Dialect.attributeJson, addAttribute, hkey, hvalue, Json.isBlank_str_eq_false h, Option.getD_some]
  dsimp only
  rw [extract_text]
  rfl

theorem foldlM_addAttribute (table : Table AttributeKey Json) {tags : List (String × String)}
    (h : ∀ tag ∈ tags, tag.1 ≠ "") : (tags.map d.attributeJson).foldlM addAttribute table =
      .ok ((tagTable tags).entries.foldl (fun t entry => t.insert entry.1 entry.2) table) := by
  induction tags generalizing table with
  | nil => rfl
  | cons tag tags ih =>
    rw [List.forall_mem_cons] at h
    rw [List.map_cons, List.foldlM_cons, addAttribute_attributeJson d table h.1]
    exact ih _ h.2

theorem flatten_attributes {tags : List (String × String)} (h : ∀ tag ∈ tags, tag.1 ≠ "")
    (hdistinct : (tags.map (·.1)).Nodup) : flatten (.arr (tags.map d.attributeJson)) = .ok (tagTable tags) := by
  rw [flatten]
  split
  · rename_i hblank
    have hnone : tags = [] := by simpa [Json.isBlank] using hblank
    rw [hnone]
    rfl
  · have hfold := foldlM_addAttribute d .empty h
    have htable := ofList_tagTable hdistinct
    rw [Table.ofList] at htable
    rwa [htable] at hfold

end Attributes

/-! ### The service on the other side -/

theorem tagsOf_tagTable (tags : List (String × String)) :
    tagsOf (tagTable tags) = ⟨tags.map fun (key, value) => (.text key, value)⟩ := by
  rw [tagsOf, tagTable, List.filterMap_map]
  exact congrArg Table.mk (congrFun List.filterMap_eq_map tags)

/-- What is left of tags without one of them. -/
theorem erase_tagsOf (tags : List (String × String)) (key : String) :
    ((tagsOf (tagTable tags)).erase (.text key)).map .str = tagTable (tags.filter fun tag => tag.1 ≠ key) := by
  have hkeep : (fun entry : AttributeKey × String => !entry.1 == .text key) ∘
      (fun tag : String × String => (.text tag.1, tag.2)) = fun tag => decide (tag.1 ≠ key) := by
    funext tag
    rw [decide_not, ← AttributeKey.text_beq_text]
    rfl
  rw [tagsOf_tagTable, Table.erase, Table.map, tagTable, List.filter_map, List.map_map, hkeep]
  rfl

theorem get?_tagsOf (tags : List (String × String)) (key : String) :
    (tagsOf (tagTable tags)).get? (.text key) = (tags.find? fun tag => tag.1 = key).map (·.2) := by
  have hfound : (fun entry : AttributeKey × String => entry.1 == .text key) ∘
      (fun tag : String × String => (.text tag.1, tag.2)) = fun tag => decide (tag.1 = key) :=
    funext fun tag => AttributeKey.text_beq_text tag.1 key
  rw [tagsOf_tagTable, Table.get?, List.find?_map, Option.map_map, hfound]
  rfl

section Peer

variable (d : Dialect) {facts : SpanFacts}

theorem attributesOf_perm (facts : SpanFacts) :
    (d.attributesOf facts).Perm (serviceAttribute "peer.service" facts.remoteService ++ facts.tags) := by
  have hsplit := List.take_append_drop d.peerAt facts.tags
  rw [Dialect.attributesOf]
  nth_rewrite 3 [← hsplit]
  rw [← List.append_assoc]
  exact List.perm_append_comm.append_right _

theorem keys_serviceAttribute (key serviceName : String) : ∀ tag ∈ serviceAttribute key serviceName, tag.1 = key := by
  unfold serviceAttribute
  split
  · simp
  · simp

theorem attributesOf_ne (h : facts.IsExpressible) : ∀ tag ∈ d.attributesOf facts, tag.1 ≠ "" := by
  intro tag htag
  rcases List.mem_append.mp ((attributesOf_perm d facts).mem_iff.mp htag) with hpeer | htag
  · rw [keys_serviceAttribute _ _ tag hpeer]
    decide
  · exact (h.tags tag htag).1

theorem nodup_attributesOf (h : facts.IsExpressible) : ((d.attributesOf facts).map (·.1)).Nodup := by
  rw [((attributesOf_perm d facts).map (·.1)).nodup_iff, List.map_append]
  unfold serviceAttribute
  split
  · exact h.distinctTags
  · apply List.nodup_cons.mpr
    refine ⟨fun hmem => ?_, h.distinctTags⟩
    obtain ⟨tag, htag, hkey⟩ := List.mem_map.mp hmem
    exact (h.tags tag htag).2 hkey

/-- Without the service on the other side the attributes are the tags. -/
theorem filter_attributesOf (h : facts.IsExpressible) :
    (d.attributesOf facts).filter (fun tag => tag.1 ≠ "peer.service") = facts.tags := by
  have hpeer : (serviceAttribute "peer.service" facts.remoteService).filter (fun tag => tag.1 ≠ "peer.service") = [] :=
    List.filter_eq_nil_iff.mpr fun tag htag => by simp [keys_serviceAttribute _ _ tag htag]
  have htags : facts.tags.filter (fun tag => tag.1 ≠ "peer.service") = facts.tags :=
    List.filter_eq_self.mpr fun tag htag => decide_eq_true (h.tags tag htag).2
  rw [Dialect.attributesOf, List.filter_append, List.filter_append, hpeer, List.append_nil, ← List.filter_append,
    List.take_append_drop, htags]

theorem find?_attributesOf (h : facts.IsExpressible) :
    (d.attributesOf facts).find? (fun tag => tag.1 = "peer.service") =
      (serviceAttribute "peer.service" facts.remoteService).head? := by
  have hnone : ∀ tags ⊆ facts.tags, tags.find? (fun tag => decide (tag.1 = "peer.service")) = none :=
    fun tags hsub => List.find?_eq_none.mpr fun tag htag => by simpa using (h.tags tag (hsub htag)).2
  rw [Dialect.attributesOf, List.find?_append, List.find?_append, hnone _ (List.take_subset _ _),
    hnone _ (List.drop_subset _ _), Option.none_or, Option.or_none]
  unfold serviceAttribute
  split <;> rfl

theorem peer_eq (h : facts.IsExpressible) :
    ((tagsOf (tagTable (d.attributesOf facts))).get? (.text "peer.service")).getD "" = facts.remoteService := by
  rw [get?_tagsOf, find?_attributesOf d h]
  unfold serviceAttribute
  split
  · rename_i hempty
    exact (String.isEmpty_iff.mp hempty).symm
  · rfl

end Peer

/-! ### Requests -/

section Requests

variable (d : Dialect) {facts : SpanFacts}

/-- What the reader of requests finds in a field that is written in one of two spellings. -/
def foundIn (d : Dialect) (v? : Option Json) (default : Json) : Json :=
  if d.camelCase then v?.getD default else (v?.getD .null).orElse default

theorem foundIn_text (s : String) : foundIn d (some (.str s)) (.str "") = .str s := by
  unfold foundIn
  split
  · rfl
  · exact Json.orElse_str s

theorem normalize_foundIn (s? : Option String) : Identifier.normalize (foundIn d (s?.map .str) (.str "")) =
    Identifier.normalize ((s?.map Json.str).getD .null) := by
  unfold foundIn
  split
  · cases s? <;> rfl
  · exact normalize_orElse _

theorem foundIn_of_not_isBlank {v : Json} (h : v.isBlank = false) (default : Json) :
    foundIn d (some v) default = v := by
  unfold foundIn
  split
  · rfl
  · rw [Option.getD_some, Json.orElse, h]
    rfl

theorem isBlank_text (n : Nat) : (Json.str (Decimal.text n)).isBlank = false := by
  apply Json.isBlank_str_eq_false
  intro hempty
  have htext : (Decimal.text n).toList = Decimal.digits n := String.toList_ofList
  rw [hempty] at htext
  exact Decimal.digits_ne_nil n htext.symm

/-- A time is read as it is meant, also if it is zero. -/
theorem toInteger_time {n : Nat} (h : n < 2 * timeBound) :
    (foundIn d (some (d.time n)) (.int 0)).toInteger = .ok (1000 * n : Nat) := by
  unfold Dialect.time
  dsimp only
  split
  · rw [foundIn_of_not_isBlank d (isBlank_text _), Json.toInteger, Numeral.readInteger_text (tooLong_nanoseconds h)]
  · have hfound : foundIn d (some (.int (1000 * n : Nat))) (.int 0) = .int (1000 * n : Nat) := by
      unfold foundIn
      split
      · rfl
      · exact Json.orElse_int _
    rw [hfound]
    rfl

theorem fdiv_thousand (n : Nat) : Int.fdiv (1000 * n : Nat) 1000 = n := by
  rw [Int.fdiv_eq_ediv_of_nonneg _ (by decide)]
  omega

theorem readEvent_eventJson {note : Nat × String} (htime : note.1 < 2 * timeBound) (hvalue : note.2 ≠ "") :
    readEvent (d.eventJson note) = .ok [annotationOf note] := by
  have hfields (v : Json) :
      let fields := [(d.name .event "time_unix_nano", v), ("name", .str note.2)]
      fieldOrNull fields "name" = .str note.2 ∧
        eitherField fields "time_unix_nano" "timeUnixNano" (.int 0) = foundIn d (some v) (.int 0) := by
    obtain ⟨camelCase, timesAsText, peerAt⟩ := d
    cases camelCase <;> exact ⟨rfl, rfl⟩
  obtain ⟨hname, hfound⟩ := hfields (d.time note.1)
  rw [Dialect.eventJson, readEvent, hname, Json.isBlank_str_eq_false hvalue, readTime, hfound, toInteger_time d htime,
    annotationOf, ← fdiv_thousand note.1]
  rfl

theorem mapM_readEvent (h : facts.IsExpressible) :
    (facts.notes.map d.eventJson).mapM readEvent = .ok (facts.notes.map fun note => [annotationOf note]) := by
  rw [List.mapM_map]
  exact mapM_eq_ok fun note hnote => readEvent_eventJson d (h.note_lt note hnote) (h.notes note hnote).2

theorem field?_spanEntries (facts : SpanFacts) (name : String) :
    field? (Json.given (d.spanEntries facts)) name = ((d.spanEntries facts).lookup name).join :=
  Json.field?_given (d.nodup_spanEntries facts) name

theorem eitherField_spanEntries (facts : SpanFacts) (default : Json) :
    let fields := Json.given (d.spanEntries facts)
    eitherField fields "trace_id" "traceId" default = foundIn d (some (.str facts.traceId)) default ∧
      eitherField fields "span_id" "spanId" default = foundIn d (some (.str facts.id)) default ∧
      eitherField fields "parent_span_id" "parentSpanId" default = foundIn d (facts.parentId.map .str) default ∧
      eitherField fields "start_time_unix_nano" "startTimeUnixNano" default =
        foundIn d (some (d.time facts.timestamp)) default ∧
      eitherField fields "end_time_unix_nano" "endTimeUnixNano" default =
        foundIn d (some (d.time (facts.timestamp + facts.duration))) default := by
  simp only [eitherField, fieldOrNull, field?_spanEntries]
  obtain ⟨camelCase, timesAsText, peerAt⟩ := d
  cases camelCase <;> exact ⟨rfl, rfl, rfl, rfl, rfl⟩

theorem ids_spanEntries (facts : SpanFacts) :
    let fields := Json.given (d.spanEntries facts)
    Identifier.normalize (eitherField fields "trace_id" "traceId" (.str "")) = Identifier.canonical facts.traceId ∧
      Identifier.normalize (eitherField fields "span_id" "spanId" (.str "")) = Identifier.canonical facts.id ∧
      Identifier.normalize (eitherField fields "parent_span_id" "parentSpanId" (.str "")) =
        Identifier.normalize ((facts.parentId.map Json.str).getD .null) := by
  obtain ⟨htraceId, hid, hparentId, -, -⟩ := eitherField_spanEntries d facts (.str "")
  dsimp only
  rw [htraceId, hid, hparentId, foundIn_text, foundIn_text, Identifier.normalize_str, Identifier.normalize_str]
  exact ⟨rfl, rfl, normalize_foundIn d facts.parentId⟩

theorem times_spanEntries (h : facts.IsExpressible) :
    let fields := Json.given (d.spanEntries facts)
    readTime fields "start_time_unix_nano" "startTimeUnixNano" = .ok (1000 * facts.timestamp : Nat) ∧
      readTime fields "end_time_unix_nano" "endTimeUnixNano" =
        .ok (1000 * (facts.timestamp + facts.duration) : Nat) := by
  obtain ⟨-, -, -, hstart, hend⟩ := eitherField_spanEntries d facts (.int 0)
  dsimp only
  rw [readTime, readTime, hstart, hend]
  exact ⟨toInteger_time d h.start_lt, toInteger_time d h.end_lt⟩

theorem field?_plainEntries (facts : SpanFacts) :
    let fields := Json.given (d.spanEntries facts)
    fieldOrNull fields "kind" = (facts.kind.label?.map fun label => Json.str ("SPAN_KIND_" ++ label)).getD .null ∧
      (field? fields "name").getD (.str "") = .str facts.name ∧
      fieldOrNull fields "attributes" = .arr ((d.attributesOf facts).map d.attributeJson) ∧
      fieldOrNull fields "events" = .arr (facts.notes.map d.eventJson) ∧ fieldOrNull fields "status" = .null := by
  simp only [fieldOrNull, field?_spanEntries]
  obtain ⟨camelCase, timesAsText, peerAt⟩ := d
  cases camelCase <;> exact ⟨rfl, rfl, rfl, rfl, rfl⟩

theorem ofJson_kind (kind : SpanKind) :
    SpanKind.ofJson ((kind.label?.map fun label => Json.str ("SPAN_KIND_" ++ label)).getD .null) = kind := by
  cases kind <;> decide +kernel

/-- The duration is the time between the start and the end, also if there is none. -/
theorem duration_eq (start duration : Nat) :
    (if ((1000 * start : Nat) : Int) < (1000 * (start + duration) : Nat) then
      Int.fdiv ((1000 * (start + duration) : Nat) - (1000 * start : Nat)) 1000 else 0) = duration := by
  have hbetween : ((1000 * (start + duration) : Nat) : Int) - (1000 * start : Nat) = (1000 * duration : Nat) := by omega
  rw [hbetween, fdiv_thousand]
  split
  · rfl
  · omega

theorem spanOf_eq (h : facts.IsExpressible) (traceId id parentId : String) (kind : Json) :
    spanOf facts.localService traceId id parentId kind (.str facts.name) .null (1000 * facts.timestamp : Nat)
        (1000 * (facts.timestamp + facts.duration) : Nat) (tagTable (d.attributesOf facts))
        (facts.notes.map fun note => [annotationOf note]) =
      { traceId, id
        parentId := if parentId.isEmpty then none else some parentId
        kind := .ofJson kind
        name := facts.name
        timestamp := facts.timestamp
        duration := facts.duration
        localEndpoint := endpointOf facts.localService
        remoteEndpoint := endpointOf facts.remoteService
        tags := tagTable facts.tags
        annotations := facts.notes.map annotationOf } := by
  unfold spanOf
  dsimp only
  rw [peer_eq d h, erase_tagsOf, filter_attributesOf d h, fdiv_thousand, duration_eq, ← List.flatMap_def,
    ← List.map_eq_flatMap]
  rfl

theorem readSpan_spanEntries (h : facts.IsExpressible) :
    readSpan facts.localService (Json.given (d.spanEntries facts)) = facts.record "trace_id" "span_id" := by
  obtain ⟨htraceId, hid, hparentId⟩ := ids_spanEntries d facts
  obtain ⟨hstart, hend⟩ := times_spanEntries d h
  obtain ⟨hkind, hname, hattributes, hevents, hstatus⟩ := field?_plainEntries d facts
  have hitems : itemsOf (.arr (facts.notes.map d.eventJson)) = facts.notes.map d.eventJson := rfl
  rw [readSpan_eq, htraceId, hid, hparentId, hstart, hend, hkind, hname, hattributes, hevents, hstatus, hitems,
    mapM_readEvent d h, flatten_attributes d (attributesOf_ne d h) (nodup_attributesOf d h), SpanFacts.record,
    SpanFacts.span?, SpanFacts.canonicalParent?_eq]
  generalize Identifier.canonical facts.traceId = traceId
  generalize Identifier.canonical facts.id = id
  dsimp only [bind, Except.bind]
  rw [spanOf_eq d h, ofJson_kind]
  split <;> rfl

theorem serviceOf_serviceAttribute (serviceName : String) :
    serviceOf (.obj [("attributes", .arr ((serviceAttribute "service.name" serviceName).map d.attributeJson))]) =
      .ok serviceName := by
  have hfield (v : Json) : fieldOrNull [("attributes", v)] "attributes" = v := rfl
  rw [serviceOf, hfield]
  unfold serviceAttribute
  split
  · rename_i hempty
    rw [String.isEmpty_iff.mp hempty]
    rfl
  · have hget : (tagTable [("service.name", serviceName)]).get? (.text "service.name") = some (.str serviceName) := by
      simp [tagTable, Table.get?]
    have hflatten : Attributes.flatten (.arr ([("service.name", serviceName)].map d.attributeJson)) =
        .ok (tagTable [("service.name", serviceName)]) :=
      flatten_attributes d (List.forall_mem_singleton.mpr (show "service.name" ≠ "" by decide)) (List.nodup_singleton _)
    rw [hflatten]
    dsimp only [bind, Except.bind]
    rw [hget, Option.getD_some, Json.orElse_str]
    rfl

theorem collect_map_eq_ok {α β : Type} {read : Json → Except Failure (List β)} {json : α → Json} {value : α → List β}
    {l : List α} (h : ∀ a ∈ l, read (json a) = .ok (value a)) : collect read (l.map json) = .ok (l.flatMap value) := by
  rw [collect, List.mapM_map]
  have hmapM : l.mapM (read ∘ json) = .ok (l.map value) := mapM_eq_ok h
  rw [hmapM]
  rfl

theorem readElement_spanJson (h : facts.IsExpressible) :
    readElement facts.localService (d.spanJson facts) = .ok facts.span?.toList := by
  rw [Dialect.spanJson, readElement, readSpan_spanEntries d h, SpanFacts.orSkip_record]

theorem readScope_spanJson (h : facts.IsExpressible) :
    readScope facts.localService (.obj [("spans", .arr [d.spanJson facts])]) = .ok facts.span?.toList := by
  have hspans : ∀ other ∈ [facts], readElement facts.localService (d.spanJson other) = .ok other.span?.toList :=
    List.forall_mem_singleton.mpr (readElement_spanJson d h)
  have hread := collect_map_eq_ok hspans
  rw [List.flatMap_singleton] at hread
  exact hread

theorem readResource_resourceJson (h : facts.IsExpressible) :
    readResource (d.resourceJson facts) = .ok facts.span?.toList := by
  have hfields (resource scope : Json) :
      let fields := [("resource", resource), (d.name .resourceSpans "scope_spans", .arr [scope])]
      fieldOrNull fields "resource" = resource ∧
        (fieldOrNull fields "scope_spans").orElse (fieldOrNull fields "scopeSpans") = .arr [scope] := by
    obtain ⟨camelCase, timesAsText, peerAt⟩ := d
    cases camelCase <;> exact ⟨rfl, rfl⟩
  have hscopes : ∀ scope ∈ [Json.obj [("spans", .arr [d.spanJson facts])]],
      readScope facts.localService (id scope) = .ok facts.span?.toList :=
    List.forall_mem_singleton.mpr (readScope_spanJson d h)
  have hread := collect_map_eq_ok hscopes
  rw [Dialect.resourceJson, readResource, (hfields _ _).1, (hfields _ _).2, serviceOf_serviceAttribute]
  rw [List.flatMap_singleton, List.map_id] at hread
  exact hread

theorem ofDocument_request {spans : List SpanFacts} (h : ∀ facts ∈ spans, facts.IsExpressible) :
    Span.ofDocument (d.request spans) = .ok (spans.filterMap SpanFacts.span?) := by
  have hfields (resources : Json) :
      let fields := [(d.name .request "resource_spans", resources)]
      (field? fields "resource_spans").getD (fieldOrNull fields "resourceSpans") = resources := by
    obtain ⟨camelCase, timesAsText, peerAt⟩ := d
    cases camelCase <;> rfl
  rw [Dialect.request, Span.ofDocument, readRequest, hfields, List.filterMap_eq_flatMap_toList]
  exact collect_map_eq_ok fun facts hfacts => readResource_resourceJson d (h facts hfacts)

end Requests

end Otlp

namespace Span

/-- The spans are read as they are meant from both formats, in whatever way the documents are written as texts, and so
the two readings agree. Both documents can be written: their compact forms are such texts. -/
theorem ofText_encodings (d : Otlp.Dialect) {spans : List SpanFacts} (h : ∀ facts ∈ spans, facts.IsExpressible) :
    (∀ zipkinText requestText, Json.read zipkinText = .ok (Zipkin.document spans) →
      Json.read requestText = .ok (d.request spans) →
        ofText zipkinText = ofText requestText ∧ ofText requestText = .ok (spans.filterMap SpanFacts.span?)) ∧
      Json.read (textOf (Zipkin.document spans)) = .ok (Zipkin.document spans) ∧
      Json.read (textOf (d.request spans)) = .ok (d.request spans) := by
  refine ⟨fun zipkinText requestText hzipkin hrequest => ?_, Json.read_compact (Zipkin.isExact_document h),
    Json.read_compact (d.isExact_request h)⟩
  have hspans : ofText zipkinText = .ok (spans.filterMap SpanFacts.span?) := by
    rw [ofText, hzipkin]
    exact Zipkin.readSpans_document h
  have hsame : ofText requestText = .ok (spans.filterMap SpanFacts.span?) := by
    rw [ofText, hrequest]
    exact Otlp.ofDocument_request d h
  exact ⟨hspans.trans hsame.symm, hsame⟩

/-- Spans with blank names, with times that are zero, with an error for a tag, and two of them without an id. -/
def mixedSpans : List SpanFacts := [
  { traceId := " 7F ", id := "A", parentId := some " ", kind := .server, name := "get", localService := " ",
    remoteService := "Web", tags := [("error", ""), ("http.path", "/"), ("service.name", "x")],
    notes := [(0, "error"), (12, "retry")] },
  { traceId := "7f", id := "" },
  { traceId := "7f", id := "\t ", duration := 5 },
  { traceId := "463ac35c9f6413ad48485a3953bb6124", id := "b", parentId := some "a", timestamp := 1502787600000000,
    duration := 1, remoteService := "peer" }]

theorem ofText_encodings_mixedSpans : (∀ facts ∈ mixedSpans, facts.IsExpressible) ∧
    ofText (textOf (Zipkin.document mixedSpans)) = ofText (textOf (Otlp.Dialect.request ⟨true, true, 1⟩ mixedSpans)) ∧
    ofText (textOf (Otlp.Dialect.request ⟨true, true, 1⟩ mixedSpans)) = .ok [
      { traceId := "000000000000007f", id := "000000000000000a", kind := .server, name := "get"
        localEndpoint := some { serviceName := " " }, remoteEndpoint := some { serviceName := "Web" }
        tags := ⟨[(.text "error", .str ""), (.text "http.path", .str "/"), (.text "service.name", .str "x")]⟩
        annotations := [⟨0, .str "error"⟩, ⟨12, .str "retry"⟩] },
      { traceId := "463ac35c9f6413ad48485a3953bb6124", id := "000000000000000b", parentId := some "000000000000000a"
        timestamp := 1502787600000000, duration := 1, remoteEndpoint := some { serviceName := "peer" } }] := by
  have h : ∀ facts ∈ mixedSpans, facts.IsExpressible := by decide +kernel
  obtain ⟨hagree, hzipkin, hrequest⟩ := ofText_encodings ⟨true, true, 1⟩ h
  obtain ⟨hsame, hspans⟩ := hagree _ _ hzipkin hrequest
  refine ⟨h, hsame, hspans.trans (congrArg Except.ok ?_)⟩
  decide +kernel

end Span

end ServiceMap
