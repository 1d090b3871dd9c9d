import ServiceMap.Proofs.Json.RoundTrip
import ServiceMap.Proofs.Results
import ServiceMap.Proofs.Span.Spelling
import ServiceMap.Span.Document

/-!
# Requests in camel case

A request in snake case is read like the same request in camel case, field by field and at every depth, but for one
thing: a time that holds nothing is the time zero in snake case and no number in camel case. So the request in camel
case is read like the one in snake case in which such times are texts that are no numbers.

The two readings need not fail alike within a span, as a null is no number for another reason than a text is. Both
reasons make the span be passed over, so this is no longer seen outside of it.
-/

namespace ServiceMap

namespace Otlp

open Json (field? fieldOrNull firstField?)

/-! ### Attributes -/

section Attributes

open Attributes

variable {fields : List (String × Json)}

theorem firstField?_camelCase (hfields : fieldsHold isSnakeCase .typedValue fields = true) {snake camelName : String}
    (h : Site.typedValue.spellings.lookup snake = some camelName) (hinside : Site.typedValue.inside? snake = none) :
    firstField? (rewriteFields camelCase .typedValue fields) [snake, camelName] =
      firstField? fields [snake, camelName] := by
  simp only [firstField?, List.findSome?_cons, List.findSome?_nil, field?_camelCase_snake h,
    field?_camelCase_camel hfields h, field?_camel hfields h, hinside]
  cases field? fields snake with
  | none => rfl
  | some v => exact congrArg some rewriteInside_none

theorem single?_camelCase (hfields : fieldsHold isSnakeCase .typedValue fields = true) :
    single? (rewriteFields camelCase .typedValue fields) = single? fields := by
  simp only [single?, textFields, integerFields, doubleFields, truthFields,
    firstField?_camelCase hfields (rfl : Site.typedValue.spellings.lookup "string_value" = some "stringValue") rfl,
    firstField?_camelCase hfields (rfl : Site.typedValue.spellings.lookup "int_value" = some "intValue") rfl,
    firstField?_camelCase hfields (rfl : Site.typedValue.spellings.lookup "double_value" = some "doubleValue") rfl,
    firstField?_camelCase hfields (rfl : Site.typedValue.spellings.lookup "bool_value" = some "boolValue") rfl]

theorem extractArray_of_field?_none {name : String} (h : field? fields name = none) :
    extractArray name fields = .ok .null := by
  induction fields with
  | nil => rfl
  | cons field fields ih =>
    obtain ⟨other, v⟩ := field
    rw [field?, List.lookup_cons] at h
    rw [extractArray]
    split at h
    · cases h
    · rename_i hother
      rw [if_neg (by simp [hother])]
      exact ih h

/-- The field of an array is the one in camel case, as there is none in snake case. -/
theorem arrayField_camelCase (fields : List (String × Json)) :
    arrayField (rewriteFields camelCase .typedValue fields) = "arrayValue" := by
  have hnone : field? (rewriteFields camelCase .typedValue fields) "array_value" = none :=
    field?_camelCase_snake (rfl : Site.typedValue.spellings.lookup "array_value" = some "arrayValue")
  rw [arrayField, hnone]
  rfl

theorem extractArray_arrayField (hfields : fieldsHold isSnakeCase .typedValue fields = true) :
    extractArray (arrayField fields) fields = extractArray "array_value" fields := by
  rw [arrayField]
  split
  · rfl
  · rename_i hnone
    have hcamel : field? fields "arrayValue" = none :=
      field?_camel hfields (rfl : Site.typedValue.spellings.lookup "array_value" = some "arrayValue")
    rw [extractArray_of_field?_none hcamel, extractArray_of_field?_none (by simpa using hnone)]

mutual

theorem extract_camelCase (v : Json) (h : allFields isSnakeCase .typedValue v = true) :
    extract (rewrite camelCase .typedValue v) = extract v := by
  cases v with
  | obj fields =>
    rw [rewrite, extract, extract, single?_camelCase h, arrayField_camelCase, extractArray_arrayField h,
      extractArray_camelCase fields h]
  | null | bool | int | float | str | arr => rfl

theorem extractArray_camelCase (fields : List (String × Json)) (h : fieldsHold isSnakeCase .typedValue fields = true) :
    extractArray "arrayValue" (rewriteFields camelCase .typedValue fields) = extractArray "array_value" fields := by
  obtain _ | ⟨⟨name, v⟩, fields⟩ := fields
  · rfl
  · obtain ⟨hname, hinside, hrest⟩ := fieldsHold_cons.mp h
    rw [rewriteFields, extractArray, extractArray]
    by_cases harray : name = "array_value"
    · subst harray
      rw [if_pos (by decide), if_pos (by decide)]
      have hv : allFields isSnakeCase .arrayValue v = true := insideHolds_one.symm.trans hinside
      exact (congrArg extractElements rewriteInside_one).trans (extractElements_camelCase v hv)
    · -- No other name becomes that of the array.
      have hcamel : camelCase.name .typedValue name ≠ "arrayValue" :=
        fun heq => harray (Site.camel_inj (by simpa [isSnakeCase] using hname) (by decide) heq)
      rw [if_neg (by simpa using Ne.symm hcamel), if_neg (by simpa using Ne.symm harray)]
      exact extractArray_camelCase fields hrest

theorem extractElements_camelCase (v : Json) (h : allFields isSnakeCase .arrayValue v = true) :
    extractElements (rewrite camelCase .arrayValue v) = extractElements v := by
  cases v with
  | obj fields => exact extractValues_camelCase fields h
  | null | bool | int | float | str | arr => rfl

theorem extractValues_camelCase (fields : List (String × Json)) (h : fieldsHold isSnakeCase .arrayValue fields = true) :
    extractValues (rewriteFields camelCase .arrayValue fields) = extractValues fields := by
  obtain _ | ⟨⟨name, v⟩, fields⟩ := fields
  · rfl
  · obtain ⟨-, hinside, hrest⟩ := fieldsHold_cons.mp h
    have hname : camelCase.name .arrayValue name = name := rfl
    rw [rewriteFields, extractValues, extractValues, hname]
    by_cases hvalues : name = "values"
    · subst hvalues
      rw [if_pos (by decide), if_pos (by decide)]
      exact congrArg (Json.arr <$> ·) (extractEach_camelCase v hinside)
    · rw [if_neg (by simpa using Ne.symm hvalues), if_neg (by simpa using Ne.symm hvalues)]
      exact extractValues_camelCase fields hrest

theorem extractEach_camelCase (v : Json) (h : insideHolds isSnakeCase (some (.each .typedValue)) v = true) :
    extractEach (rewriteInside camelCase (some (.each .typedValue)) v) = extractEach v := by
  cases v with
  | arr items => exact extractAll_camelCase items h
  | null | bool | int | float | str | obj => rfl

theorem extractAll_camelCase (items : List Json) (h : itemsHold isSnakeCase .typedValue items = true) :
    extractAll (rewriteItems camelCase .typedValue items) = extractAll items := by
  cases items with
  | nil => rfl
  | cons v items =>
    obtain ⟨hv, hrest⟩ := itemsHold_cons.mp h
    rw [rewriteItems, extractAll, extractAll, extract_camelCase v hv, extractAll_camelCase items hrest]

end

theorem addAttribute_camelCase (table : Table AttributeKey Json) {v : Json}
    (h : allFields isSnakeCase .keyValue v = true) :
    addAttribute table (rewrite camelCase .keyValue v) = addAttribute table v := by
  cases v with
  | obj fields =>
    have hkey : fieldOrNull (rewriteFields camelCase .keyValue fields) "key" = fieldOrNull fields "key" := by
      rw [fieldOrNull_camelCase h (by decide) rfl]
      exact rewriteInside_none
    have hvalue : field? (rewriteFields camelCase .keyValue fields) "value" =
        (field? fields "value").map (rewrite camelCase .typedValue) := by
      have hfield := field?_camelCase h (by decide : "value" ∉ Site.keyValue.camelNames)
      have hinside : rewriteInside camelCase (Site.keyValue.inside? "value") = rewrite camelCase .typedValue :=
        funext fun v => rewriteInside_one
      rwa [hinside] at hfield
    rw [rewrite, addAttribute, addAttribute, hkey, hvalue]
    cases hv : field? fields "value" with
    | none => rfl
    | some v =>
      have hinside := insideHolds_of_fieldsHold h "value"
      rw [fieldOrNull, hv] at hinside
      have hextract := extract_camelCase v (insideHolds_one.symm.trans hinside)
      rw [Option.map_some, Option.getD_some, Option.getD_some]
      cases v with
      | obj value =>
        rw [rewrite] at hextract ⊢
        cases (fieldOrNull fields "key").isBlank with
        | true => rfl
        | false => simp only [hextract]
      | null | bool | int | float | str | arr => rfl
  | null | bool | int | float | str | arr => rfl

theorem foldlM_addAttribute_camelCase {items : List Json} (h : itemsHold isSnakeCase .keyValue items = true)
    (table : Table AttributeKey Json) :
    (rewriteItems camelCase .keyValue items).foldlM addAttribute table = items.foldlM addAttribute table := by
  induction items generalizing table with
  | nil => rfl
  | cons v items ih =>
    obtain ⟨hv, hrest⟩ := itemsHold_cons.mp h
    rw [rewriteItems, List.foldlM_cons, List.foldlM_cons, addAttribute_camelCase table hv]
    exact congrArg (addAttribute table v >>= ·) (funext (ih hrest))

theorem flatten_camelCase {v : Json} (h : insideHolds isSnakeCase (some (.each .keyValue)) v = true) :
    flatten (rewriteInside camelCase (some (.each .keyValue)) v) = flatten v := by
  cases v with
  | arr items =>
    cases items with
    | nil => rfl
    | cons v items => exact foldlM_addAttribute_camelCase h .empty
  | null | bool | int | float | str | obj => rfl

end Attributes

/-! ### Fields with two names -/

section Fields

variable {site : Site} {fields : List (String × Json)} {snake camelName : String}

theorem eitherField_camelCase (hfields : fieldsHold isSnakeCase site fields = true)
    (h : site.spellings.lookup snake = some camelName) (hinside : site.inside? snake = none) (default : Json) :
    eitherField (rewriteFields camelCase site fields) snake camelName default = (field? fields snake).getD default := by
  rw [eitherField, fieldOrNull, field?_camelCase_snake h, field?_camelCase_camel hfields h, hinside]
  cases field? fields snake with
  | none => rfl
  | some v => exact rewriteInside_none

theorem eitherField_refusedTimes (hfields : fieldsHold isSnakeCase site fields = true)
    (h : site.spellings.lookup snake = some camelName) (default : Json) :
    eitherField (rewriteFields refusedTimes site fields) snake camelName default =
      (fieldOrNull (rewriteFields refusedTimes site fields) snake).orElse default := by
  rw [eitherField, field?_refusedTimes_camel hfields h]
  rfl

theorem normalize_orElse (v : Json) : Identifier.normalize (v.orElse (.str "")) = Identifier.normalize v := by
  rw [Json.orElse]
  split
  · rename_i hblank
    rw [Identifier.normalize, Identifier.normalize, if_pos hblank]
    rfl
  · rfl

theorem normalize_camelCase (hfields : fieldsHold isSnakeCase site fields = true)
    (h : site.spellings.lookup snake = some camelName) (hinside : site.inside? snake = none) (htime : snake ∉ site.times) :
    Identifier.normalize (eitherField (rewriteFields camelCase site fields) snake camelName (.str "")) =
      Identifier.normalize (eitherField (rewriteFields refusedTimes site fields) snake camelName (.str "")) := by
  have hnone : refusedTimes.inside? site snake = none := by simp [refusedTimes, hinside]
  rw [eitherField_camelCase hfields h hinside, eitherField_refusedTimes hfields h, fieldOrNull_refusedTimes htime, hnone,
    rewriteInside_none, normalize_orElse, fieldOrNull]
  cases field? fields snake with
  | none => rfl
  | some v => rfl

theorem truncate?_of_isZero {x : Binary64} (h : x.isZero = true) : x.truncate? = some 0 := by
  cases x with
  | finite negative m e =>
    rw [Binary64.isZero, beq_iff_eq] at h
    subst h
    simp [Binary64.truncate?, Binary64.scaled]
  | nan | infinite => cases h

theorem toInteger_of_isEmpty {v : Json} (h : isEmpty v = true) :
    ∃ e, v.toInteger = .error e ∧ e.skipsRecord = true := by
  cases v with
  | str s =>
    rw [isEmpty, String.isEmpty_iff] at h
    subst h
    exact ⟨.notInteger "", by decide +kernel, rfl⟩
  | null | arr | obj => exact ⟨_, rfl, rfl⟩
  | bool | int | float => cases h

theorem toInteger_of_isBlank {v : Json} (h : isEmpty v = false) (hblank : v.isBlank = true) : v.toInteger = .ok 0 := by
  cases v with
  | bool b =>
    cases b with
    | false => rfl
    | true => cases hblank
  | int n =>
    rw [Json.isBlank, beq_iff_eq] at hblank
    rw [hblank]
    rfl
  | float x =>
    have htruncate := truncate?_of_isZero hblank
    cases x with
    | nan => cases hblank
    | infinite | finite =>
      rw [Json.toInteger, htruncate]
      simp
  | null => cases h
  | str | arr | obj => exact absurd hblank (ne_true_of_eq_false h)

theorem toInteger_alike (v : Json) :
    Alike v.toInteger ((if isEmpty v then Json.str "no time" else v).orElse (.int 0)).toInteger := by
  split
  · rename_i hempty
    obtain ⟨e, he, hskip⟩ := toInteger_of_isEmpty hempty
    have htext : ((Json.str "no time").orElse (.int 0)).toInteger = .error (.notInteger "no time") := by decide +kernel
    rw [he, htext]
    exact .skipped hskip rfl
  · rename_i hempty
    rw [Json.orElse]
    split
    · rename_i hblank
      rw [toInteger_of_isBlank (by simpa using hempty) hblank]
      exact .same _
    · exact .same _

theorem readTime_alike (hfields : fieldsHold isSnakeCase site fields = true)
    (h : site.spellings.lookup snake = some camelName) (hinside : site.inside? snake = none) (htime : snake ∈ site.times) :
    Alike (readTime (rewriteFields camelCase site fields) snake camelName)
      (readTime (rewriteFields refusedTimes site fields) snake camelName) := by
  rw [readTime, readTime, eitherField_camelCase hfields h hinside, eitherField_refusedTimes hfields h, fieldOrNull,
    field?_refusedTimes_time htime hinside]
  cases field? fields snake with
  | none => exact .same _
  | some v => exact toInteger_alike v

end Fields

/-! ### Requests -/

/-- The span that is made of what was read. -/
def spanOf (localService traceId id parentId : String) (kind name status : Json) (start stop : Int)
    (attributes : Table AttributeKey Json) (annotations : List (List Annotation)) : Span :=
  let tags := tagsOf attributes
  { traceId, id
    parentId := if parentId.isEmpty then none else some parentId
    kind := .ofJson kind
    name := name.display
    timestamp := Int.fdiv start 1000
    duration := if start < stop then Int.fdiv (stop - start) 1000 else 0
    localEndpoint := endpointOf localService
    remoteEndpoint := endpointOf ((tags.get? (.text "peer.service")).getD "")
    tags := addStatus ((tags.erase (.text "peer.service")).map .str) status
    annotations := annotations.flatten }

section Requests

variable {fields : List (String × Json)} {v : Json}

/-- A field with one name that is no time and has nothing inside of it. -/
theorem field?_plain {site : Site} {name : String} (hfields : fieldsHold isSnakeCase site fields = true)
    (hname : name ∉ site.camelNames) (h : site.spellings.lookup name = none) (htime : name ∉ site.times)
    (hinside : site.inside? name = none) :
    field? (rewriteFields camelCase site fields) name = field? (rewriteFields refusedTimes site fields) name := by
  have hnone : refusedTimes.inside? site name = none := by simp [refusedTimes, hinside]
  have hcamel := field?_camelCase hfields hname
  rw [Site.camel_of_lookup_none h] at hcamel
  rw [hcamel, field?_refusedTimes htime, hinside, hnone]
  exact congrFun (congrArg Option.map (funext fun v => rewriteInside_none.trans rewriteInside_none.symm)) _

theorem fieldOrNull_plain {site : Site} {name : String} (hfields : fieldsHold isSnakeCase site fields = true)
    (hname : name ∉ site.camelNames) (h : site.spellings.lookup name = none) (htime : name ∉ site.times)
    (hinside : site.inside? name = none) :
    fieldOrNull (rewriteFields camelCase site fields) name =
      fieldOrNull (rewriteFields refusedTimes site fields) name := by
  rw [fieldOrNull, fieldOrNull, field?_plain hfields hname h htime hinside]

theorem collect_map_congr {α : Type} {read : Json → Except Failure (List α)} {f g : Json → Json} {items : List Json}
    (h : ∀ item ∈ items, read (f item) = read (g item)) : collect read (items.map f) = collect read (items.map g) := by
  have hmapM : (items.map f).mapM read = (items.map g).mapM read := by
    induction items with
    | nil => rfl
    | cons item items ih =>
      rw [List.forall_mem_cons] at h
      rw [List.map_cons, List.map_cons, List.mapM_cons, List.mapM_cons, h.1, ih h.2]
  rw [collect, collect, hmapM]

/-- The objects in an array are read alike if each of them is. -/
theorem collect_inside {α : Type} {read : Json → Except Failure (List α)} {site : Site}
    (h : ∀ item ∈ itemsOf v, read (rewrite camelCase site item) = read (rewrite refusedTimes site item)) :
    collect read (itemsOf (rewriteInside camelCase (some (.each site)) v)) =
      collect read (itemsOf (rewriteInside refusedTimes (some (.each site)) v)) := by
  rw [itemsOf_rewriteInside, itemsOf_rewriteInside]
  exact collect_map_congr h

theorem readEvent_alike (h : allFields isSnakeCase .event v = true) :
    Alike (readEvent (rewrite camelCase .event v)) (readEvent (rewrite refusedTimes .event v)) := by
  cases v with
  | obj fields =>
    have hname : fieldOrNull (rewriteFields camelCase .event fields) "name" =
        fieldOrNull (rewriteFields refusedTimes .event fields) "name" :=
      fieldOrNull_plain h (by decide) rfl (by decide) rfl
    rw [rewrite, rewrite, readEvent, readEvent, hname]
    split
    · exact .same _
    · exact (readTime_alike h rfl rfl (by decide)).bind fun time => .same _
  | null | bool | int | float | str | arr => exact .same _

theorem itemsOf_events (hfields : fieldsHold isSnakeCase .span fields = true) :
    itemsOf (fieldOrNull (rewriteFields camelCase .span fields) "events") =
        (itemsOf (fieldOrNull fields "events")).map (rewrite camelCase .event) ∧
      itemsOf (fieldOrNull (rewriteFields refusedTimes .span fields) "events") =
        (itemsOf (fieldOrNull fields "events")).map (rewrite refusedTimes .event) := by
  rw [fieldOrNull_camelCase hfields (by decide) rfl, fieldOrNull_refusedTimes (by decide)]
  exact ⟨itemsOf_rewriteInside, itemsOf_rewriteInside⟩

theorem readSpan_eq (localService : String) (fields : List (String × Json)) : readSpan localService fields =
    let traceId := Identifier.normalize (eitherField fields "trace_id" "traceId" (.str ""))
    let id := Identifier.normalize (eitherField fields "span_id" "spanId" (.str ""))
    let parentId := Identifier.normalize (eitherField fields "parent_span_id" "parentSpanId" (.str ""))
    if traceId.isEmpty || id.isEmpty then .error (.spanWithoutId "trace_id" "span_id")
    else (do
      let start ← readTime fields "start_time_unix_nano" "startTimeUnixNano"
      let stop ← readTime fields "end_time_unix_nano" "endTimeUnixNano"
      let attributes ← Attributes.flatten (fieldOrNull fields "attributes")
      let annotations ← (itemsOf (fieldOrNull fields "events")).mapM readEvent
      .ok (spanOf localService traceId id parentId (fieldOrNull fields "kind") ((field? fields "name").getD (.str ""))
        (fieldOrNull fields "status") start stop attributes annotations)) :=
  rfl

theorem readSpan_alike (localService : String) (h : fieldsHold isSnakeCase .span fields = true) :
    Alike (readSpan localService (rewriteFields camelCase .span fields))
      (readSpan localService (rewriteFields refusedTimes .span fields)) := by
  have hattributes : Attributes.flatten (fieldOrNull (rewriteFields camelCase .span fields) "attributes") =
      Attributes.flatten (fieldOrNull (rewriteFields refusedTimes .span fields) "attributes") := by
    rw [fieldOrNull_camelCase h (by decide) rfl, fieldOrNull_refusedTimes (by decide)]
    exact (flatten_camelCase (insideHolds_of_fieldsHold h "attributes")).trans (congrArg _ rewriteInside_none.symm)
  have hevents : Alike ((itemsOf (fieldOrNull (rewriteFields camelCase .span fields) "events")).mapM readEvent)
      ((itemsOf (fieldOrNull (rewriteFields refusedTimes .span fields) "events")).mapM readEvent) := by
    rw [(itemsOf_events h).1, (itemsOf_events h).2]
    exact .mapM_map fun event hevent =>
      readEvent_alike (allFields_of_mem (insideHolds_of_fieldsHold h "events") event hevent)
  have hname := field?_plain h (by decide : "name" ∉ Site.span.camelNames) rfl (by decide) rfl
  have hkind := fieldOrNull_plain h (by decide : "kind" ∉ Site.span.camelNames) rfl (by decide) rfl
  have hstatus := fieldOrNull_plain h (by decide : "status" ∉ Site.span.camelNames) rfl (by decide) rfl
  have htraceId := normalize_camelCase h (rfl : Site.span.spellings.lookup "trace_id" = some "traceId") rfl (by decide)
  have hid := normalize_camelCase h (rfl : Site.span.spellings.lookup "span_id" = some "spanId") rfl (by decide)
  have hparentId := normalize_camelCase h
    (rfl : Site.span.spellings.lookup "parent_span_id" = some "parentSpanId") rfl (by decide)
  rw [readSpan_eq, readSpan_eq, hattributes, hname, hkind, hstatus, htraceId, hid, hparentId]
  -- What is left to differ are the two times and the events.
  apply Alike.guarded
  exact (readTime_alike h rfl rfl (by decide)).bind fun start =>
    (readTime_alike h rfl rfl (by decide)).bind fun stop =>
      (Alike.same _).bind fun attributes => hevents.bind fun annotations => .same _

theorem readElement_camelCase (localService : String) (h : allFields isSnakeCase .span v = true) :
    readElement localService (rewrite camelCase .span v) = readElement localService (rewrite refusedTimes .span v) := by
  cases v with
  | obj fields => exact (readSpan_alike localService h).orSkip_eq
  | null | bool | int | float | str | arr => rfl

theorem readScope_camelCase (localService : String) (h : allFields isSnakeCase .scopeSpans v = true) :
    readScope localService (rewrite camelCase .scopeSpans v) =
      readScope localService (rewrite refusedTimes .scopeSpans v) := by
  cases v with
  | obj fields =>
    have hspans := allFields_of_mem (insideHolds_of_fieldsHold h "spans")
    rw [rewrite, rewrite, readScope, readScope, fieldOrNull_camelCase h (by decide) rfl,
      fieldOrNull_refusedTimes (by decide)]
    exact collect_inside fun span hspan => readElement_camelCase localService (hspans span hspan)
  | null | bool | int | float | str | arr => rfl

theorem serviceOf_camelCase (h : allFields isSnakeCase .resource v = true) :
    serviceOf (rewrite camelCase .resource v) = serviceOf v := by
  cases v with
  | obj fields =>
    rw [rewrite, serviceOf, serviceOf, fieldOrNull_camelCase h (by decide) rfl]
    exact congrArg (· >>= _) (flatten_camelCase (insideHolds_of_fieldsHold h "attributes"))
  | null | bool | int | float | str | arr => rfl

theorem itemsOf_orElse_null (v : Json) : itemsOf (v.orElse .null) = itemsOf v := by
  rw [Json.orElse]
  split
  · rename_i hblank
    cases v with
    | arr items => exact (List.isEmpty_iff.mp hblank).symm
    | null | bool | int | float | str | obj => rfl
  · rfl

theorem itemsOf_scopes (h : fieldsHold isSnakeCase .resourceSpans fields = true) :
    itemsOf ((fieldOrNull (rewriteFields camelCase .resourceSpans fields) "scope_spans").orElse
        (fieldOrNull (rewriteFields camelCase .resourceSpans fields) "scopeSpans")) =
      itemsOf (rewriteInside camelCase (some (.each .scopeSpans)) (fieldOrNull fields "scope_spans")) ∧
    itemsOf ((fieldOrNull (rewriteFields refusedTimes .resourceSpans fields) "scope_spans").orElse
        (fieldOrNull (rewriteFields refusedTimes .resourceSpans fields) "scopeSpans")) =
      itemsOf (rewriteInside refusedTimes (some (.each .scopeSpans)) (fieldOrNull fields "scope_spans")) := by
  have hspelling : Site.resourceSpans.spellings.lookup "scope_spans" = some "scopeSpans" := rfl
  constructor
  · rw [fieldOrNull_camelCase_snake hspelling, fieldOrNull_camelCase_camel h hspelling]
    rfl
  · rw [fieldOrNull_refusedTimes_camel h hspelling, fieldOrNull_refusedTimes (by decide), itemsOf_orElse_null]
    rfl

theorem readResource_camelCase (h : allFields isSnakeCase .resourceSpans v = true) :
    readResource (rewrite camelCase .resourceSpans v) = readResource (rewrite refusedTimes .resourceSpans v) := by
  cases v with
  | obj fields =>
    have hservice : serviceOf (fieldOrNull (rewriteFields camelCase .resourceSpans fields) "resource") =
        serviceOf (fieldOrNull (rewriteFields refusedTimes .resourceSpans fields) "resource") := by
      have hresource := insideHolds_of_fieldsHold h "resource"
      rw [fieldOrNull_camelCase h (by decide) rfl, fieldOrNull_refusedTimes (by decide)]
      exact (congrArg serviceOf rewriteInside_one).trans
        ((serviceOf_camelCase (insideHolds_one.symm.trans hresource)).trans
          (congrArg serviceOf rewriteInside_none.symm))
    have hscopes := allFields_of_mem (insideHolds_of_fieldsHold h "scope_spans")
    obtain ⟨hcamel, hrefused⟩ := itemsOf_scopes h
    rw [rewrite, rewrite, readResource, readResource, hservice]
    refine congrArg (serviceOf _ >>= ·) (funext fun localService => ?_)
    dsimp only
    rw [hcamel, hrefused]
    exact collect_inside fun scope hscope => readScope_camelCase localService (hscopes scope hscope)
  | null | bool | int | float | str | arr => rfl

theorem readRequest_camelCase (h : fieldsHold isSnakeCase .request fields = true) :
    readRequest (rewriteFields camelCase .request fields) =
      readRequest (rewriteFields refusedTimes .request fields) := by
  have hspelling : Site.request.spellings.lookup "resource_spans" = some "resourceSpans" := rfl
  have hresources := allFields_of_mem (insideHolds_of_fieldsHold h "resource_spans")
  have hcamel : (field? (rewriteFields camelCase .request fields) "resource_spans").getD
      (fieldOrNull (rewriteFields camelCase .request fields) "resourceSpans") =
        rewriteInside camelCase (some (.each .resourceSpans)) (fieldOrNull fields "resource_spans") := by
    rw [field?_camelCase_snake hspelling, fieldOrNull_camelCase_camel h hspelling]
    rfl
  have hrefused : (field? (rewriteFields refusedTimes .request fields) "resource_spans").getD
      (fieldOrNull (rewriteFields refusedTimes .request fields) "resourceSpans") =
        rewriteInside refusedTimes (some (.each .resourceSpans)) (fieldOrNull fields "resource_spans") := by
    rw [fieldOrNull_refusedTimes_camel h hspelling]
    exact fieldOrNull_refusedTimes (by decide)
  rw [readRequest, readRequest, hcamel, hrefused]
  cases hv : fieldOrNull fields "resource_spans" with
  | arr resources =>
    rw [hv] at hresources
    exact collect_inside fun resource hresource => readResource_camelCase (hresources resource hresource)
  | null | bool | int | float | str | obj => rfl

end Requests

end Otlp

namespace Span

open Otlp

theorem ofDocument_camelCase {document : Json} (h : UsesSnakeCase document) :
    ofDocument (rewrite camelCase .request document) = ofDocument (rewrite refusedTimes .request document) := by
  cases document with
  | obj fields => exact readRequest_camelCase h
  | null | bool | int | float | str | arr => rfl

/-- The request in camel case is read as the one in snake case is, with every time refused that holds nothing. If there
are none, then the two spellings are interchangeable. -/
theorem ofText_camelCase {text camelText : String} {document : Json} (hread : Json.read text = .ok document)
    (hcamel : Json.read camelText = .ok (rewrite camelCase .request document)) (hsnake : UsesSnakeCase document) :
    ofText camelText = ofDocument (rewrite refusedTimes .request document) ∧
      (HasTimes document → ofText camelText = ofText text) := by
  have hrefused : ofText camelText = ofDocument (rewrite refusedTimes .request document) := by
    rw [ofText, hcamel]
    exact ofDocument_camelCase hsnake
  refine ⟨hrefused, fun htimes => ?_⟩
  rw [hrefused, rewrite_refusedTimes .request document htimes, ofText, hread]
  rfl

/-- A request with one span that starts at this time. -/
def requestAt (start : Json) : Json :=
  .obj [("resource_spans", .arr [.obj [("scope_spans", .arr [.obj [("spans", .arr [.obj [
    ("trace_id", .str "7"), ("span_id", .str "a"), ("start_time_unix_nano", start),
    ("attributes", .arr [.obj [("key", .str "load"), ("value", .obj [("array_value",
      .obj [("values", .arr [.obj [("int_value", .str "3")]])])])]]),
    ("events", .arr [.obj [("name", .str "retry"), ("time_unix_nano", .int 7000)]])]])]])]])]

/-- The same request in camel case. -/
def camelRequestAt (start : Json) : Json :=
  .obj [("resourceSpans", .arr [.obj [("scopeSpans", .arr [.obj [("spans", .arr [.obj [
    ("traceId", .str "7"), ("spanId", .str "a"), ("startTimeUnixNano", start),
    ("attributes", .arr [.obj [("key", .str "load"), ("value", .obj [("arrayValue",
      .obj [("values", .arr [.obj [("intValue", .str "3")]])])])]]),
    ("events", .arr [.obj [("name", .str "retry"), ("timeUnixNano", .int 7000)]])]])]])]])]

def textOf (document : Json) : String := String.ofList document.compact

theorem read_requestAt {start : Json} (h : start.IsExact) :
    Json.read (textOf (requestAt start)) = .ok (requestAt start) := by
  have htime : Decimal.tooLong 7000 = false := by decide +kernel
  apply Json.read_compact
  simp [requestAt, Json.IsExact, Json.ItemsExact, Json.FieldsExact, h, htime]

theorem read_camelRequestAt {start : Json} (h : start.IsExact) :
    Json.read (textOf (camelRequestAt start)) = .ok (camelRequestAt start) := by
  have htime : Decimal.tooLong 7000 = false := by decide +kernel
  apply Json.read_compact
  simp [camelRequestAt, Json.IsExact, Json.ItemsExact, Json.FieldsExact, h, htime]

theorem ofText_camelCase_requestAt :
    Json.read (textOf (requestAt (.str "5000"))) = .ok (requestAt (.str "5000")) ∧
    Json.read (textOf (camelRequestAt (.str "5000"))) = .ok (rewrite camelCase .request (requestAt (.str "5000"))) ∧
    UsesSnakeCase (requestAt (.str "5000")) ∧ HasTimes (requestAt (.str "5000")) ∧
    ofText (textOf (camelRequestAt (.str "5000"))) = ofDocument (rewrite refusedTimes .request (requestAt (.str "5000"))) ∧
    ofText (textOf (camelRequestAt (.str "5000"))) = ofText (textOf (requestAt (.str "5000"))) := by
  have hrewrite : rewrite camelCase .request (requestAt (.str "5000")) = camelRequestAt (.str "5000") := by
    decide +kernel
  have hexact : Json.IsExact (.str "5000") := by simp [Json.IsExact]
  have hread := read_requestAt hexact
  have hcamel := (read_camelRequestAt hexact).trans (congrArg _ hrewrite.symm)
  have hsnake : UsesSnakeCase (requestAt (.str "5000")) := by decide +kernel
  have htimes : HasTimes (requestAt (.str "5000")) := by decide +kernel
  obtain ⟨hrefused, hsame⟩ := ofText_camelCase hread hcamel hsnake
  exact ⟨hread, hcamel, hsnake, htimes, hrefused, hsame htimes⟩

/-- A span whose time is null is read in snake case and lost in camel case. -/
theorem requestAt_null_lost : UsesSnakeCase (requestAt .null) ∧
    Json.read (textOf (requestAt .null)) = .ok (requestAt .null) ∧
    Json.read (textOf (camelRequestAt .null)) = .ok (rewrite camelCase .request (requestAt .null)) ∧
    ofText (textOf (requestAt .null)) = .ok [{
      traceId := "0000000000000007", id := "000000000000000a"
      tags := ⟨[(.text "load", .str "[3]")]⟩
      annotations := [{ timestamp := 7, value := .str "retry" }] }] ∧
    ofText (textOf (camelRequestAt .null)) = .ok [] := by
  have hrewrite : rewrite camelCase .request (requestAt .null) = camelRequestAt .null := by decide +kernel
  have hexact : Json.IsExact .null := by simp [Json.IsExact]
  have hread := read_requestAt hexact
  have hcamel := read_camelRequestAt hexact
  refine ⟨by decide +kernel, hread, hcamel.trans (congrArg _ hrewrite.symm), ?_, ?_⟩
  · rw [ofText, hread]
    decide +kernel
  · rw [ofText, hcamel]
    decide +kernel

end Span

end ServiceMap
