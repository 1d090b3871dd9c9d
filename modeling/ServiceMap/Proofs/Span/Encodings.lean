import ServiceMap.Proofs.Json.RoundTrip
import ServiceMap.Proofs.Span.Spelling
import ServiceMap.Span.Document

/-!
# Spans in both formats

What is known of a span can be written as a Zipkin span and as an OTLP request with a resource of its own. A request is
written in one of many dialects: with names in snake case or in camel case, with times as numbers or as texts, and with
the attribute for the service on the other side anywhere among the tags.

The documents are read back as what they are, as long as no number in them is too long.
-/

namespace ServiceMap

namespace Json

/-- The fields that have a value. -/
def given (entries : List (String × Option Json)) : List (String × Json) :=
  entries.filterMap fun (name, v?) => v?.map (name, ·)

section Given

variable {entries : List (String × Option Json)}

theorem names_given_sublist : ((given entries).map (·.1)).Sublist (entries.map (·.1)) := by
  induction entries with
  | nil => exact List.nil_sublist _
  | cons entry entries ih =>
    obtain ⟨name, _ | v⟩ := entry
    · exact ih.cons name
    · exact ih.cons_cons name

theorem field?_given (h : (entries.map (·.1)).Nodup) (name : String) :
    field? (given entries) name = (entries.lookup name).join := by
  induction entries with
  | nil => rfl
  | cons entry entries ih =>
    obtain ⟨other, v?⟩ := entry
    obtain ⟨hother, hrest⟩ := List.nodup_cons.mp h
    have hout : other ∉ (given entries).map (·.1) := fun hmem => hother (names_given_sublist.subset hmem)
    by_cases hname : name = other
    · subst hname
      rw [List.lookup_cons_self]
      cases v? with
      | some v => exact List.lookup_cons_self
      | none =>
        apply List.lookup_eq_none_iff.mpr
        intro field hfield
        exact bne_iff_ne.mpr fun heq => hout (List.mem_map.mpr ⟨field, hfield, heq.symm⟩)
    · have hbeq : (name == other) = false := beq_eq_false_iff_ne.mpr hname
      rw [List.lookup_cons, hbeq]
      cases v? with
      | some v =>
        have hgiven : given ((other, some v) :: entries) = (other, v) :: given entries := rfl
        rw [hgiven, field?, List.lookup_cons, hbeq]
        exact ih hrest
      | none => exact ih hrest

theorem isExact_given (h : (entries.map (·.1)).Nodup) (hvalues : ∀ entry ∈ entries, ∀ v ∈ entry.2, v.IsExact) :
    (Json.obj (given entries)).IsExact := by
  refine ⟨names_given_sublist.nodup h, fieldsExact_iff.mpr fun field hfield => ?_⟩
  obtain ⟨entry, hentry, hsome⟩ := List.mem_filterMap.mp hfield
  obtain ⟨v, hv, rfl⟩ := Option.map_eq_some_iff.mp hsome
  exact hvalues entry hentry v hv

end Given

end Json

/-! ### What is known of a span -/

/-- What is known of a span, whatever format it is written in. Times are in microseconds. A service that is not known
has the empty name. -/
structure SpanFacts where
  traceId : String
  id : String
  parentId : Option String := none
  kind : SpanKind := .unset
  name : String := ""
  timestamp : Nat := 0
  duration : Nat := 0
  localService : String := ""
  remoteService : String := ""
  tags : List (String × String) := []
  notes : List (Nat × String) := []
deriving Repr, DecidableEq

/-- The greatest number of digits of a time that can still be written in nanoseconds. -/
def maxTimeDigits : Nat := 4000

def IsShortTime (n : Nat) : Prop := (Decimal.digits n).length ≤ maxTimeDigits

instance (n : Nat) : Decidable (IsShortTime n) := inferInstanceAs (Decidable (_ ≤ _))

/-- The facts can be said in both formats. -/
structure SpanFacts.IsExpressible (facts : SpanFacts) : Prop where
  timestamp : IsShortTime facts.timestamp
  duration : IsShortTime facts.duration
  notes : ∀ note ∈ facts.notes, IsShortTime note.1 ∧ note.2 ≠ ""
  tags : ∀ tag ∈ facts.tags, tag.1 ≠ "" ∧ tag.1 ≠ "peer.service"
  distinctTags : (facts.tags.map (·.1)).Nodup

def SpanKind.label? : SpanKind → Option String
  | client => some "CLIENT"
  | server => some "SERVER"
  | producer => some "PRODUCER"
  | consumer => some "CONSUMER"
  | unset => none

instance (facts : SpanFacts) : Decidable facts.IsExpressible :=
  decidable_of_iff (IsShortTime facts.timestamp ∧ IsShortTime facts.duration ∧
    (∀ note ∈ facts.notes, IsShortTime note.1 ∧ note.2 ≠ "") ∧
    (∀ tag ∈ facts.tags, tag.1 ≠ "" ∧ tag.1 ≠ "peer.service") ∧ (facts.tags.map (·.1)).Nodup)
    ⟨fun ⟨timestamp, duration, notes, tags, distinctTags⟩ => ⟨timestamp, duration, notes, tags, distinctTags⟩,
      fun h => ⟨h.timestamp, h.duration, h.notes, h.tags, h.distinctTags⟩⟩

/-- The least time that has too many digits. -/
def timeBound : Nat := Nat.pow 10 maxTimeDigits

theorem IsShortTime.lt {n : Nat} (h : IsShortTime n) : n < timeBound := by
  unfold timeBound
  rw [Nat.pow_eq]
  exact (Nat.length_toDigits_le_iff (by decide) (by decide)).mp h

theorem IsShortTime.tooLong_eq_false {n : Nat} (h : IsShortTime n) : Decimal.tooLong n = false :=
  Decimal.tooLong_eq_false_iff.mpr (Nat.le_trans h (by decide))

/-- In nanoseconds a time is not too long, and neither is the sum of two times. -/
theorem tooLong_nanoseconds {n : Nat} (h : n < 2 * timeBound) : Decimal.tooLong (1000 * n : Nat) = false := by
  have hbound := Nat.pow_le_pow_right (show 0 < 10 by decide) (show maxTimeDigits + 4 ≤ Decimal.maxDigits by decide)
  rw [Nat.pow_add] at hbound
  unfold timeBound at h
  rw [Nat.pow_eq] at h
  rw [Decimal.tooLong, decide_eq_false_iff_not, Nat.not_le, Nat.pow_eq, Int.natAbs_natCast]
  omega

namespace SpanFacts.IsExpressible

variable {facts : SpanFacts}

theorem start_lt (h : facts.IsExpressible) : facts.timestamp < 2 * timeBound := by
  have htimestamp := h.timestamp.lt
  omega

theorem end_lt (h : facts.IsExpressible) : facts.timestamp + facts.duration < 2 * timeBound := by
  have htimestamp := h.timestamp.lt
  have hduration := h.duration.lt
  omega

theorem note_lt (h : facts.IsExpressible) : ∀ note ∈ facts.notes, note.1 < 2 * timeBound := by
  intro note hnote
  have htime := (h.notes note hnote).1.lt
  omega

end SpanFacts.IsExpressible

/-! ### Zipkin spans -/

namespace Zipkin

def endpointJson? (serviceName : String) : Option Json :=
  if serviceName.isEmpty then none else some (.obj [("serviceName", .str serviceName)])

def annotationJson (note : Nat × String) : Json := .obj [("timestamp", .int note.1), ("value", .str note.2)]

def tagFields (tags : List (String × String)) : List (String × Json) := tags.map fun (key, value) => (key, .str value)

def spanEntries (facts : SpanFacts) : List (String × Option Json) := [
  ("traceId", some (.str facts.traceId)),
  ("id", some (.str facts.id)),
  ("parentId", facts.parentId.map .str),
  ("kind", facts.kind.label?.map .str),
  ("name", some (.str facts.name)),
  ("timestamp", some (.int facts.timestamp)),
  ("duration", some (.int facts.duration)),
  ("localEndpoint", endpointJson? facts.localService),
  ("remoteEndpoint", endpointJson? facts.remoteService),
  ("tags", some (.obj (tagFields facts.tags))),
  ("annotations", some (.arr (facts.notes.map annotationJson)))]

def spanJson (facts : SpanFacts) : Json := .obj (Json.given (spanEntries facts))

/-- The array of the spans. -/
def document (spans : List SpanFacts) : Json := .arr (spans.map spanJson)

theorem nodup_spanEntries (facts : SpanFacts) : ((spanEntries facts).map (·.1)).Nodup := by
  show ["traceId", "id", "parentId", "kind", "name", "timestamp", "duration", "localEndpoint", "remoteEndpoint", "tags",
    "annotations"].Nodup
  decide

theorem isExact_endpointJson (serviceName : String) : ∀ v ∈ endpointJson? serviceName, v.IsExact := by
  intro v hv
  unfold endpointJson? at hv
  split at hv
  · cases hv
  · obtain rfl := Option.some.inj hv
    simp [Json.IsExact, Json.FieldsExact]

theorem isExact_tagFields {tags : List (String × String)} (h : (tags.map (·.1)).Nodup) :
    (Json.obj (tagFields tags)).IsExact := by
  have hnames : (tagFields tags).map (·.1) = tags.map (·.1) := by
    simp [tagFields, Function.comp_def]
  refine ⟨hnames ▸ h, Json.fieldsExact_iff.mpr fun field hfield => ?_⟩
  obtain ⟨tag, -, rfl⟩ := List.mem_map.mp hfield
  exact trivial

theorem isExact_annotations {facts : SpanFacts} (h : facts.IsExpressible) :
    (Json.arr (facts.notes.map annotationJson)).IsExact := by
  apply Json.itemsExact_iff.mpr
  intro v hv
  obtain ⟨note, hnote, rfl⟩ := List.mem_map.mp hv
  simp [annotationJson, Json.IsExact, Json.FieldsExact, (h.notes note hnote).1.tooLong_eq_false]

theorem isExact_spanJson {facts : SpanFacts} (h : facts.IsExpressible) : (spanJson facts).IsExact := by
  have htimes := And.intro h.timestamp.tooLong_eq_false h.duration.tooLong_eq_false
  have hendpoints := And.intro (isExact_endpointJson facts.localService) (isExact_endpointJson facts.remoteService)
  have hlists := And.intro (isExact_tagFields h.distinctTags) (isExact_annotations h)
  apply Json.isExact_given (nodup_spanEntries facts)
  simpa [spanEntries, Json.IsExact, and_assoc] using And.intro htimes (And.intro hendpoints hlists)

theorem isExact_document {spans : List SpanFacts} (h : ∀ facts ∈ spans, facts.IsExpressible) :
    (document spans).IsExact := by
  apply Json.itemsExact_iff.mpr
  intro v hv
  obtain ⟨facts, hfacts, rfl⟩ := List.mem_map.mp hv
  exact isExact_spanJson (h facts hfacts)

end Zipkin

/-! ### OTLP requests -/

namespace Otlp

/-- The attribute that names a service, if it is known. -/
def serviceAttribute (key serviceName : String) : List (String × String) :=
  if serviceName.isEmpty then [] else [(key, serviceName)]

/-- How a request is written where there is a choice. -/
structure Dialect where
  camelCase : Bool
  timesAsText : Bool
  /-- How many tags stand before the attribute for the service on the other side. -/
  peerAt : Nat
deriving Repr, DecidableEq

namespace Dialect

variable (d : Dialect)

/-- The name of the field that has this name in snake case. -/
def name (site : Site) (snake : String) : String := if d.camelCase then site.camel snake else snake

variable {d} in
theorem name_ne {site : Site} {snake other : String} (hsnake : snake ≠ other) (hcamel : site.camel snake ≠ other) :
    d.name site snake ≠ other := by
  unfold name
  split
  · exact hcamel
  · exact hsnake

/-- A time in nanoseconds. -/
def time (microseconds : Nat) : Json :=
  let n : Int := (1000 * microseconds : Nat)
  if d.timesAsText then .str (Decimal.text n) else .int n

def attributeJson (tag : String × String) : Json :=
  .obj [("key", .str tag.1), ("value", .obj [(d.name .typedValue "string_value", .str tag.2)])]

/-- The attributes of a span: its tags and among them the service on the other side. -/
def attributesOf (facts : SpanFacts) : List (String × String) :=
  facts.tags.take d.peerAt ++ serviceAttribute "peer.service" facts.remoteService ++ facts.tags.drop d.peerAt

def eventJson (note : Nat × String) : Json :=
  .obj [(d.name .event "time_unix_nano", d.time note.1), ("name", .str note.2)]

def spanEntries (facts : SpanFacts) : List (String × Option Json) := [
  (d.name .span "trace_id", some (.str facts.traceId)),
  (d.name .span "span_id", some (.str facts.id)),
  (d.name .span "parent_span_id", facts.parentId.map .str),
  ("name", some (.str facts.name)),
  ("kind", facts.kind.label?.map fun label => .str ("SPAN_KIND_" ++ label)),
  (d.name .span "start_time_unix_nano", some (d.time facts.timestamp)),
  (d.name .span "end_time_unix_nano", some (d.time (facts.timestamp + facts.duration))),
  ("attributes", some (.arr ((d.attributesOf facts).map d.attributeJson))),
  ("events", some (.arr (facts.notes.map d.eventJson)))]

def spanJson (facts : SpanFacts) : Json := .obj (Json.given (d.spanEntries facts))

/-- A resource with one span. -/
def resourceJson (facts : SpanFacts) : Json := .obj [
  ("resource", .obj [
    ("attributes", .arr ((serviceAttribute "service.name" facts.localService).map d.attributeJson))]),
  (d.name .resourceSpans "scope_spans", .arr [.obj [("spans", .arr [d.spanJson facts])]])]

/-- The request that exports the spans. -/
def request (spans : List SpanFacts) : Json :=
  .obj [(d.name .request "resource_spans", .arr (spans.map d.resourceJson))]

theorem isExact_time {n : Nat} (h : n < 2 * timeBound) : (d.time n).IsExact := by
  unfold time
  split
  · exact trivial
  · exact tooLong_nanoseconds h

theorem isExact_attributes (tags : List (String × String)) : (Json.arr (tags.map d.attributeJson)).IsExact := by
  apply Json.itemsExact_iff.mpr
  intro v hv
  obtain ⟨tag, -, rfl⟩ := List.mem_map.mp hv
  simp [attributeJson, Json.IsExact, Json.FieldsExact]

theorem isExact_events {facts : SpanFacts} (h : facts.IsExpressible) :
    (Json.arr (facts.notes.map d.eventJson)).IsExact := by
  apply Json.itemsExact_iff.mpr
  intro v hv
  obtain ⟨note, hnote, rfl⟩ := List.mem_map.mp hv
  have htime := d.isExact_time (h.note_lt note hnote)
  have hname : d.name .event "time_unix_nano" ≠ "name" := name_ne (by decide) (by decide)
  simp [eventJson, Json.IsExact, Json.FieldsExact, htime, hname]

theorem nodup_spanEntries (facts : SpanFacts) : ((d.spanEntries facts).map (·.1)).Nodup := by
  obtain ⟨camelCase, timesAsText, peerAt⟩ := d
  cases camelCase with
  | false =>
    show ["trace_id", "span_id", "parent_span_id", "name", "kind", "start_time_unix_nano", "end_time_unix_nano",
      "attributes", "events"].Nodup
    decide
  | true =>
    show ["traceId", "spanId", "parentSpanId", "name", "kind", "startTimeUnixNano", "endTimeUnixNano", "attributes",
      "events"].Nodup
    decide

theorem isExact_spanJson {facts : SpanFacts} (h : facts.IsExpressible) : (d.spanJson facts).IsExact := by
  have htimes := And.intro (d.isExact_time h.start_lt) (d.isExact_time h.end_lt)
  have hlists := And.intro (d.isExact_attributes (d.attributesOf facts)) (d.isExact_events h)
  apply Json.isExact_given (d.nodup_spanEntries facts)
  simpa [spanEntries, Json.IsExact, and_assoc] using And.intro htimes hlists

theorem isExact_resourceJson {facts : SpanFacts} (h : facts.IsExpressible) : (d.resourceJson facts).IsExact := by
  have hattributes := d.isExact_attributes (serviceAttribute "service.name" facts.localService)
  have hname : d.name .resourceSpans "scope_spans" ≠ "resource" := name_ne (by decide) (by decide)
  simpa [resourceJson, Json.IsExact, Json.FieldsExact, Json.ItemsExact, hname.symm] using
    And.intro hattributes (d.isExact_spanJson h)

theorem isExact_request {spans : List SpanFacts} (h : ∀ facts ∈ spans, facts.IsExpressible) :
    (d.request spans).IsExact := by
  refine ⟨List.nodup_singleton _, Json.itemsExact_iff.mpr fun v hv => ?_, trivial⟩
  obtain ⟨facts, hfacts, rfl⟩ := List.mem_map.mp hv
  exact d.isExact_resourceJson (h facts hfacts)

end Dialect

end Otlp

end ServiceMap
