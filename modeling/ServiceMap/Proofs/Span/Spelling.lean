import Mathlib.Data.List.Nodup
import ServiceMap.Span.Otlp

/-!
# The spellings of OTLP requests

A request is made of objects of several sites, one inside of the other. At each site some fields have a name in snake case
and one in camel case. A document is rewritten site by site: its fields get other names or other values, and what stands
inside of them is rewritten as well. Only objects at their site are touched, whatever else the document holds.
-/

namespace ServiceMap.Otlp

open Json (field? fieldOrNull)

/-- What an object of a request stands for. -/
inductive Site where
  | request
  | resourceSpans
  | resource
  | scopeSpans
  | span
  | event
  | keyValue
  | typedValue
  | arrayValue
deriving Repr, DecidableEq

/-- What stands in a field: an object of a site, or an array of such objects. -/
inductive Inside where
  | one (site : Site)
  | each (site : Site)
deriving Repr, DecidableEq

def Inside.site : Inside → Site
  | one site | each site => site

namespace Site

/-- The fields with two names, in snake case and in camel case. -/
def spellings : Site → List (String × String)
  | request => [("resource_spans", "resourceSpans")]
  | resourceSpans => [("scope_spans", "scopeSpans")]
  | span => [("trace_id", "traceId"), ("span_id", "spanId"), ("parent_span_id", "parentSpanId"),
      ("start_time_unix_nano", "startTimeUnixNano"), ("end_time_unix_nano", "endTimeUnixNano")]
  | event => [("time_unix_nano", "timeUnixNano")]
  | typedValue => [("string_value", "stringValue"), ("int_value", "intValue"), ("double_value", "doubleValue"),
      ("bool_value", "boolValue"), ("array_value", "arrayValue")]
  | resource | scopeSpans | keyValue | arrayValue => []

def camelNames (site : Site) : List String := site.spellings.map (·.2)

/-- The name in camel case of a field, its own name if it has no other one. -/
def camel (site : Site) (name : String) : String := (site.spellings.lookup name).getD name

/-- The fields with objects of a request in them. -/
def insides : Site → List (String × Inside)
  | request => [("resource_spans", .each resourceSpans)]
  | resourceSpans => [("resource", .one resource), ("scope_spans", .each scopeSpans)]
  | resource => [("attributes", .each keyValue)]
  | scopeSpans => [("spans", .each span)]
  | span => [("attributes", .each keyValue), ("events", .each event)]
  | event => []
  | keyValue => [("value", .one typedValue)]
  | typedValue => [("array_value", .one arrayValue)]
  | arrayValue => [("values", .each typedValue)]

def inside? (site : Site) (name : String) : Option Inside := site.insides.lookup name

/-- The fields that hold times. -/
def times : Site → List String
  | span => ["start_time_unix_nano", "end_time_unix_nano"]
  | event => ["time_unix_nano"]
  | _ => []

/-- An object at this site may have times in it. -/
def leadsToTimes : Site → Bool
  | request | resourceSpans | scopeSpans | span | event => true
  | resource | keyValue | typedValue | arrayValue => false

end Site

/-! ### Rewriting -/

/-- How documents are rewritten: what to go into, and which name and value a field gets. -/
structure Rewriting where
  inside? : Site → String → Option Inside
  name : Site → String → String
  value : Site → String → Json → Json

mutual

def rewrite (r : Rewriting) (site : Site) : Json → Json
  | .obj fields => .obj (rewriteFields r site fields)
  | v => v

def rewriteFields (r : Rewriting) (site : Site) : List (String × Json) → List (String × Json)
  | [] => []
  | (name, v) :: fields =>
    (r.name site name, r.value site name (rewriteInside r (r.inside? site name) v)) :: rewriteFields r site fields

def rewriteInside (r : Rewriting) : Option Inside → Json → Json
  | some (.one site), .obj fields => .obj (rewriteFields r site fields)
  | some (.each site), .arr items => .arr (rewriteItems r site items)
  | _, v => v

def rewriteItems (r : Rewriting) (site : Site) : List Json → List Json
  | [] => []
  | v :: items => rewrite r site v :: rewriteItems r site items

end

mutual

/-- All fields of all objects at their sites are as they should be. -/
def allFields (p : Site → String → Json → Bool) (site : Site) : Json → Bool
  | .obj fields => fieldsHold p site fields
  | _ => true

def fieldsHold (p : Site → String → Json → Bool) (site : Site) : List (String × Json) → Bool
  | [] => true
  | (name, v) :: fields => p site name v && insideHolds p (site.inside? name) v && fieldsHold p site fields

def insideHolds (p : Site → String → Json → Bool) : Option Inside → Json → Bool
  | some (.one site), .obj fields => fieldsHold p site fields
  | some (.each site), .arr items => itemsHold p site items
  | _, _ => true

def itemsHold (p : Site → String → Json → Bool) (site : Site) : List Json → Bool
  | [] => true
  | v :: items => allFields p site v && itemsHold p site items

end

/-- The names in camel case for those in snake case. -/
def camelCase : Rewriting where
  inside? := Site.inside?
  name := Site.camel
  value _ _ v := v

/-- The value holds nothing: it is null or an empty text, array or object. -/
def isEmpty : Json → Bool
  | .null => true
  | .str s => s.isEmpty
  | .arr items => items.isEmpty
  | .obj fields => fields.isEmpty
  | _ => false

def isEmptyTime (site : Site) (name : String) (v : Json) : Bool := site.times.contains name && isEmpty v

/-- A text that is no number for every time that holds nothing. -/
def refusedTimes : Rewriting where
  inside? site name := (site.inside? name).filter (·.site.leadsToTimes)
  name _ name := name
  value site name v := if isEmptyTime site name v then .str "no time" else v

def isSnakeCase (site : Site) (name : String) (_ : Json) : Bool := !site.camelNames.contains name

def noEmptyTime (site : Site) (name : String) (v : Json) : Bool := !isEmptyTime site name v

/-- No field of the request has a name in camel case. -/
def UsesSnakeCase (request : Json) : Prop := allFields isSnakeCase .request request = true

/-- Every time of the request holds something. -/
def HasTimes (request : Json) : Prop := allFields noEmptyTime .request request = true

instance (request : Json) : Decidable (UsesSnakeCase request) := inferInstanceAs (Decidable (_ = true))

instance (request : Json) : Decidable (HasTimes request) := inferInstanceAs (Decidable (_ = true))

/-! ### Laws of rewriting -/

section Laws

variable {r : Rewriting} {p : Site → String → Json → Bool} {site : Site} {fields : List (String × Json)} {v : Json}

theorem rewriteFields_eq : rewriteFields r site fields =
    fields.map fun (name, v) => (r.name site name, r.value site name (rewriteInside r (r.inside? site name) v)) := by
  induction fields with
  | nil => rfl
  | cons field fields ih => rw [rewriteFields, ih, List.map_cons]

theorem rewriteItems_eq (items : List Json) : rewriteItems r site items = items.map (rewrite r site) := by
  induction items with
  | nil => rfl
  | cons v items ih => rw [rewriteItems, ih, List.map_cons]

theorem rewriteInside_one : rewriteInside r (some (.one site)) v = rewrite r site v := by
  cases v <;> rfl

theorem rewriteInside_none : rewriteInside r none v = v := by
  cases v <;> rfl

theorem rewriteInside_null (inside? : Option Inside) : rewriteInside r inside? .null = .null := by
  obtain _ | _ | _ := inside? <;> rfl

theorem itemsOf_rewriteInside :
    itemsOf (rewriteInside r (some (.each site)) v) = (itemsOf v).map (rewrite r site) := by
  cases v with
  | arr items => exact rewriteItems_eq items
  | null | bool | int | float | str | obj => rfl

theorem fieldsHold_cons {name : String} : fieldsHold p site ((name, v) :: fields) = true ↔
    p site name v = true ∧ insideHolds p (site.inside? name) v = true ∧ fieldsHold p site fields = true := by
  rw [fieldsHold, Bool.and_eq_true, Bool.and_eq_true, and_assoc]

theorem itemsHold_cons {items : List Json} :
    itemsHold p site (v :: items) = true ↔ allFields p site v = true ∧ itemsHold p site items = true := by
  rw [itemsHold, Bool.and_eq_true]

theorem fieldsHold_iff : fieldsHold p site fields = true ↔
    ∀ field ∈ fields, p site field.1 field.2 = true ∧ insideHolds p (site.inside? field.1) field.2 = true := by
  induction fields with
  | nil => simp [fieldsHold]
  | cons field fields ih => rw [fieldsHold_cons, ih, List.forall_mem_cons, and_assoc]

theorem itemsHold_iff {items : List Json} :
    itemsHold p site items = true ↔ ∀ v ∈ items, allFields p site v = true := by
  induction items with
  | nil => simp [itemsHold]
  | cons v items ih => rw [itemsHold_cons, ih, List.forall_mem_cons]

theorem insideHolds_one : insideHolds p (some (.one site)) v = allFields p site v := by
  cases v <;> rfl

theorem allFields_of_mem (h : insideHolds p (some (.each site)) v = true) :
    ∀ item ∈ itemsOf v, allFields p site item = true := by
  cases v with
  | arr items => exact itemsHold_iff.mp h
  | null | bool | int | float | str | obj => exact fun _ hitem => absurd hitem List.not_mem_nil

theorem mem_of_field? {name : String} (h : field? fields name = some v) : (name, v) ∈ fields := by
  obtain ⟨front, back, rfl, -⟩ := List.lookup_eq_some_iff.mp h
  exact List.mem_append_right _ List.mem_cons_self

theorem insideHolds_of_fieldsHold (h : fieldsHold p site fields = true) (name : String) :
    insideHolds p (site.inside? name) (fieldOrNull fields name) = true := by
  rw [fieldOrNull]
  cases hv : field? fields name with
  | none => cases site.inside? name with
    | none => rfl
    | some inside => cases inside <;> rfl
  | some v => exact (fieldsHold_iff.mp h _ (mem_of_field? hv)).2

/-- A field of which the name becomes no other field's. -/
theorem field?_rewriteFields {name : String} (h : ∀ field ∈ fields, r.name site field.1 = r.name site name → field.1 = name) :
    field? (rewriteFields r site fields) (r.name site name) =
      (field? fields name).map fun v => r.value site name (rewriteInside r (r.inside? site name) v) := by
  rw [rewriteFields_eq]
  unfold field?
  induction fields with
  | nil => rfl
  | cons field fields ih =>
    rw [List.forall_mem_cons] at h
    obtain ⟨other, v⟩ := field
    rw [List.map_cons, List.lookup_cons, List.lookup_cons]
    by_cases hother : other = name
    · subst hother
      simp
    · have hname : r.name site name ≠ r.name site other := fun heq => hother (h.1 heq.symm)
      rw [beq_false_of_ne hname, beq_false_of_ne (Ne.symm hother)]
      exact ih h.2

end Laws

/-! ### Names -/

namespace Site

variable {site : Site} {name snake camelName : String}

theorem nodup_camelNames (site : Site) : site.camelNames.Nodup := by
  cases site <;> decide

/-- No name in camel case has another one in camel case. -/
theorem lookup_camelNames (site : Site) : ∀ camelName ∈ site.camelNames, site.spellings.lookup camelName = none := by
  cases site <;> decide

theorem mem_spellings_of_lookup (h : site.spellings.lookup snake = some camelName) :
    (snake, camelName) ∈ site.spellings := by
  obtain ⟨front, back, heq, -⟩ := List.lookup_eq_some_iff.mp h
  rw [heq]
  exact List.mem_append_right _ List.mem_cons_self

theorem mem_camelNames_of_lookup (h : site.spellings.lookup snake = some camelName) : camelName ∈ site.camelNames :=
  List.mem_map_of_mem (f := Prod.snd) (mem_spellings_of_lookup h)

theorem not_mem_camelNames_of_lookup (h : site.spellings.lookup snake = some camelName) : snake ∉ site.camelNames := by
  intro hmem
  rw [lookup_camelNames site snake hmem] at h
  cases h

theorem camel_of_lookup (h : site.spellings.lookup snake = some camelName) : site.camel snake = camelName := by
  rw [camel, h, Option.getD_some]

theorem camel_of_lookup_none (h : site.spellings.lookup name = none) : site.camel name = name := by
  rw [camel, h, Option.getD_none]

/-- Fields of different names keep different names. -/
theorem camel_inj {first second : String} (hfirst : first ∉ site.camelNames) (hsecond : second ∉ site.camelNames)
    (h : site.camel first = site.camel second) : first = second := by
  cases hf : site.spellings.lookup first with
  | none =>
    rw [camel_of_lookup_none hf] at h
    cases hs : site.spellings.lookup second with
    | none => rwa [camel_of_lookup_none hs] at h
    | some other =>
      rw [camel_of_lookup hs] at h
      exact absurd (h ▸ mem_camelNames_of_lookup hs) hfirst
  | some camelName =>
    rw [camel_of_lookup hf] at h
    cases hs : site.spellings.lookup second with
    | none =>
      rw [camel_of_lookup_none hs] at h
      exact absurd (h ▸ mem_camelNames_of_lookup hf) hsecond
    | some other =>
      -- Two names in snake case: no name in camel case belongs to both.
      rw [camel_of_lookup hs] at h
      have hpair := List.inj_on_of_nodup_map (nodup_camelNames site) (mem_spellings_of_lookup hf)
        (mem_spellings_of_lookup hs) h
      exact congrArg Prod.fst hpair

/-- No field gets a name in snake case that has one in camel case. -/
theorem camel_ne (h : site.spellings.lookup snake = some camelName) (name : String) : site.camel name ≠ snake := by
  intro heq
  cases hname : site.spellings.lookup name with
  | none =>
    rw [camel_of_lookup_none hname] at heq
    rw [heq, h] at hname
    cases hname
  | some other =>
    rw [camel_of_lookup hname] at heq
    exact not_mem_camelNames_of_lookup h (heq ▸ mem_camelNames_of_lookup hname)

end Site

section Names

variable {site : Site} {fields : List (String × Json)} {name snake camelName : String}

theorem not_mem_camelNames (hfields : fieldsHold isSnakeCase site fields = true) :
    ∀ field ∈ fields, field.1 ∉ site.camelNames := by
  intro field hfield
  have hname := (fieldsHold_iff.mp hfields field hfield).1
  simpa [isSnakeCase] using hname

theorem field?_camelCase (hfields : fieldsHold isSnakeCase site fields = true) (hname : name ∉ site.camelNames) :
    field? (rewriteFields camelCase site fields) (site.camel name) =
      (field? fields name).map (rewriteInside camelCase (site.inside? name)) :=
  @field?_rewriteFields camelCase site fields name
    fun field hfield => Site.camel_inj (not_mem_camelNames hfields field hfield) hname

theorem field?_camelCase_camel (hfields : fieldsHold isSnakeCase site fields = true)
    (h : site.spellings.lookup snake = some camelName) : field? (rewriteFields camelCase site fields) camelName =
      (field? fields snake).map (rewriteInside camelCase (site.inside? snake)) := by
  rw [← field?_camelCase hfields (Site.not_mem_camelNames_of_lookup h), Site.camel_of_lookup h]

theorem field?_camelCase_snake (h : site.spellings.lookup snake = some camelName) :
    field? (rewriteFields camelCase site fields) snake = none := by
  rw [field?, rewriteFields_eq, List.lookup_eq_none_iff]
  intro field hfield
  obtain ⟨other, -, rfl⟩ := List.mem_map.mp hfield
  exact bne_iff_ne.mpr (Ne.symm (Site.camel_ne h other.1))

/-- The fields with one name are those they were but for what stands inside of them. -/
theorem fieldOrNull_camelCase (hfields : fieldsHold isSnakeCase site fields = true) (hname : name ∉ site.camelNames)
    (h : site.spellings.lookup name = none) : fieldOrNull (rewriteFields camelCase site fields) name =
      rewriteInside camelCase (site.inside? name) (fieldOrNull fields name) := by
  have hfield := field?_camelCase hfields hname
  rw [Site.camel_of_lookup_none h] at hfield
  rw [fieldOrNull, fieldOrNull, hfield]
  cases field? fields name with
  | none => exact (rewriteInside_null _).symm
  | some v => rfl

theorem fieldOrNull_camelCase_camel (hfields : fieldsHold isSnakeCase site fields = true)
    (h : site.spellings.lookup snake = some camelName) : fieldOrNull (rewriteFields camelCase site fields) camelName =
      rewriteInside camelCase (site.inside? snake) (fieldOrNull fields snake) := by
  rw [fieldOrNull, fieldOrNull, field?_camelCase_camel hfields h]
  cases field? fields snake with
  | none => exact (rewriteInside_null _).symm
  | some v => rfl

theorem fieldOrNull_camelCase_snake (h : site.spellings.lookup snake = some camelName) :
    fieldOrNull (rewriteFields camelCase site fields) snake = .null := by
  rw [fieldOrNull, field?_camelCase_snake h, Option.getD_none]

theorem field?_camel (hfields : fieldsHold isSnakeCase site fields = true)
    (h : site.spellings.lookup snake = some camelName) : field? fields camelName = none := by
  cases hv : field? fields camelName with
  | none => rfl
  | some v => exact absurd (Site.mem_camelNames_of_lookup h) (not_mem_camelNames hfields _ (mem_of_field? hv))

end Names

/-! ### Times -/

section Times

variable {site : Site} {fields : List (String × Json)} {name : String}

/-- The value of a field that is no time is what it was but for the times inside of it. -/
theorem field?_refusedTimes (h : name ∉ site.times) : field? (rewriteFields refusedTimes site fields) name =
    (field? fields name).map (rewriteInside refusedTimes (refusedTimes.inside? site name)) := by
  have hfield := @field?_rewriteFields refusedTimes site fields name fun _ _ heq => heq
  have hvalue (v : Json) : refusedTimes.value site name v = v := by simp [refusedTimes, isEmptyTime, h]
  simp only [hvalue] at hfield
  exact hfield

theorem fieldOrNull_refusedTimes (h : name ∉ site.times) : fieldOrNull (rewriteFields refusedTimes site fields) name =
    rewriteInside refusedTimes (refusedTimes.inside? site name) (fieldOrNull fields name) := by
  rw [fieldOrNull, fieldOrNull, field?_refusedTimes h]
  cases field? fields name with
  | none => exact (rewriteInside_null _).symm
  | some v => rfl

theorem field?_refusedTimes_time (h : name ∈ site.times) (hinside : site.inside? name = none) :
    field? (rewriteFields refusedTimes site fields) name =
      (field? fields name).map fun v => if isEmpty v then .str "no time" else v := by
  have hfield := @field?_rewriteFields refusedTimes site fields name fun _ _ heq => heq
  have hnone : refusedTimes.inside? site name = none := by simp [refusedTimes, hinside]
  have hvalue (v : Json) : refusedTimes.value site name v = if isEmpty v then .str "no time" else v := by
    simp [refusedTimes, isEmptyTime, h]
  simp only [hnone, rewriteInside_none, hvalue] at hfield
  exact hfield

theorem field?_refusedTimes_camel {snake camelName : String} (hfields : fieldsHold isSnakeCase site fields = true)
    (h : site.spellings.lookup snake = some camelName) :
    field? (rewriteFields refusedTimes site fields) camelName = none := by
  have hfield := @field?_rewriteFields refusedTimes site fields camelName fun _ _ heq => heq
  rw [field?_camel hfields h] at hfield
  exact hfield

theorem fieldOrNull_refusedTimes_camel {snake camelName : String} (hfields : fieldsHold isSnakeCase site fields = true)
    (h : site.spellings.lookup snake = some camelName) :
    fieldOrNull (rewriteFields refusedTimes site fields) camelName = .null := by
  rw [fieldOrNull, field?_refusedTimes_camel hfields h, Option.getD_none]

end Times

theorem refusedTimes_inside?_cases (site : Site) (name : String) :
    refusedTimes.inside? site name = none ∨ refusedTimes.inside? site name = site.inside? name := by
  unfold refusedTimes
  dsimp only
  cases site.inside? name with
  | none => exact .inl rfl
  | some inside =>
    rw [Option.filter_some]
    split
    · exact .inr rfl
    · exact .inl rfl

mutual

/-- If every time holds something, then none is refused. -/
theorem rewrite_refusedTimes (site : Site) (v : Json) (h : allFields noEmptyTime site v = true) :
    rewrite refusedTimes site v = v := by
  cases v with
  | obj fields => exact congrArg Json.obj (rewriteFields_refusedTimes site fields h)
  | null | bool | int | float | str | arr => rfl

theorem rewriteFields_refusedTimes (site : Site) (fields : List (String × Json))
    (h : fieldsHold noEmptyTime site fields = true) : rewriteFields refusedTimes site fields = fields := by
  obtain _ | ⟨⟨name, v⟩, fields⟩ := fields
  · rfl
  · obtain ⟨htime, hinside, hrest⟩ := fieldsHold_cons.mp h
    have hv : rewriteInside refusedTimes (refusedTimes.inside? site name) v = v := by
      obtain hnone | hsame := refusedTimes_inside?_cases site name
      · rw [hnone, rewriteInside_none]
      · rw [hsame]
        exact rewriteInside_refusedTimes (site.inside? name) v hinside
    have hvalue : refusedTimes.value site name v = v := if_neg fun hempty => by simp [noEmptyTime, hempty] at htime
    rw [rewriteFields, hv, hvalue, rewriteFields_refusedTimes site fields hrest]
    rfl

theorem rewriteInside_refusedTimes (inside? : Option Inside) (v : Json)
    (h : insideHolds noEmptyTime inside? v = true) : rewriteInside refusedTimes inside? v = v := by
  obtain _ | site | site := inside?
  · exact rewriteInside_none
  · cases v with
    | obj fields => exact congrArg Json.obj (rewriteFields_refusedTimes site fields h)
    | null | bool | int | float | str | arr => rfl
  · cases v with
    | arr items => exact congrArg Json.arr (rewriteItems_refusedTimes site items h)
    | null | bool | int | float | str | obj => rfl

theorem rewriteItems_refusedTimes (site : Site) (items : List Json) (h : itemsHold noEmptyTime site items = true) :
    rewriteItems refusedTimes site items = items := by
  cases items with
  | nil => rfl
  | cons v items =>
    obtain ⟨hv, hrest⟩ := itemsHold_cons.mp h
    rw [rewriteItems, rewrite_refusedTimes site v hv, rewriteItems_refusedTimes site items hrest]

end

end ServiceMap.Otlp
