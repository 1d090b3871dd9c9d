import ServiceMap.Proofs.Span.Concatenated
import ServiceMap.Proofs.Trace.SpanTree

/-!
# The ids of spans that are read

Both readers of spans pass over a span without a trace id or without an id, and take an empty parent id for none. So no
document and no stream has a span in which one of the ids is the empty text, and the empty text is never an id that two
spans share.
-/

namespace ServiceMap

theorem Yields.collect {α : Type} {P : α → Prop} {read : Json → Except Failure (List α)}
    (h : ∀ item, Yields (∀ a ∈ ·, P a) (read item)) (items : List Json) :
    Yields (∀ a ∈ ·, P a) (Otlp.collect read items) := by
  induction items with
  | nil => exact nil
  | cons item items ih =>
    rw [Otlp.collect_cons, inTurn_eq]
    exact append (h item) ih

/-! ### Ids -/

/-- None of the ids of a span is the empty text. -/
structure Span.IsIdentified (span : Span) : Prop where
  traceId_ne : span.traceId ≠ ""
  id_ne : span.id ≠ ""
  parentId_ne : span.parentId ≠ some ""

/-- The ids of a span are these, where an empty parent id is none. -/
def Span.HasIds (traceId id parentId : String) (span : Span) : Prop :=
  span.traceId = traceId ∧ span.id = id ∧ span.parentId = if parentId.isEmpty then none else some parentId

/-- What both readers do: they ask for the trace id and the id first. -/
theorem Span.yields_isIdentified {traceId id : String} (parentId : String) {rest : Except Failure Span} (e : Failure)
    (hrest : Yields (Span.HasIds traceId id parentId) rest) :
    Yields Span.IsIdentified (if traceId.isEmpty || id.isEmpty then .error e else rest) := by
  split
  · exact .error e
  · rename_i hids
    simp only [Bool.or_eq_true, String.isEmpty_iff, not_or] at hids
    intro span hspan
    obtain ⟨htrace, hid, hparent⟩ := hrest span hspan
    constructor
    · exact htrace ▸ hids.1
    · exact hid ▸ hids.2
    · rw [hparent]
      split
      · simp
      · simp_all

theorem Zipkin.yields_readSpan (fields : List (String × Json)) : Yields Span.IsIdentified (readSpan fields) := by
  apply Span.yields_isIdentified (Identifier.normalize (Json.fieldOrNull fields "parentId"))
    (.spanWithoutId "traceId" "id")
  iterate 6 refine .bind fun _ => ?_
  exact .ok ⟨rfl, rfl, rfl⟩

theorem Otlp.yields_readSpan (localService : String) (fields : List (String × Json)) :
    Yields Span.IsIdentified (readSpan localService fields) := by
  apply Span.yields_isIdentified (Identifier.normalize (eitherField fields "parent_span_id" "parentSpanId" (.str "")))
    (.spanWithoutId "trace_id" "span_id")
  iterate 4 refine .bind fun _ => ?_
  exact .ok ⟨rfl, rfl, rfl⟩

/-! ### Documents and streams -/

namespace Zipkin

mutual

theorem yields_readElement (element : Json) : Yields (∀ span ∈ ·, span.IsIdentified) (readElement element) := by
  cases element with
  | arr items => exact yields_readSpans items
  | obj fields => exact (yields_readSpan fields).orSkip
  | null | bool | int | float | str => exact .nil

theorem yields_readSpans (items : List Json) : Yields (∀ span ∈ ·, span.IsIdentified) (readSpans items) := by
  cases items with
  | nil => exact .nil
  | cons item items => exact (yields_readElement item).append (yields_readSpans items)

end

end Zipkin

namespace Otlp

theorem yields_readElement (localService : String) (element : Json) :
    Yields (∀ span ∈ ·, span.IsIdentified) (readElement localService element) := by
  cases element with
  | obj fields => exact (yields_readSpan localService fields).orSkip
  | null | bool | int | float | str | arr => exact .nil

theorem yields_readScope (localService : String) (scope : Json) :
    Yields (∀ span ∈ ·, span.IsIdentified) (readScope localService scope) := by
  cases scope with
  | obj fields => exact .collect (yields_readElement localService) _
  | null | bool | int | float | str | arr => exact .nil

theorem yields_readResource (resource : Json) : Yields (∀ span ∈ ·, span.IsIdentified) (readResource resource) := by
  cases resource with
  | obj fields => exact .bind fun localService => .collect (yields_readScope localService) _
  | null | bool | int | float | str | arr => exact .nil

theorem yields_readRequest (fields : List (String × Json)) :
    Yields (∀ span ∈ ·, span.IsIdentified) (readRequest fields) := by
  unfold readRequest
  split
  · exact .collect yields_readResource _
  · exact .error _

end Otlp

namespace Span

theorem yields_ofDocument (document : Json) : Yields (∀ span ∈ ·, span.IsIdentified) (ofDocument document) := by
  cases document with
  | arr items => exact Zipkin.yields_readSpans items
  | obj fields => exact Otlp.yields_readRequest fields
  | null | bool | int | float | str => exact .error _

theorem yields_ofText (text : String) : Yields (∀ span ∈ ·, span.IsIdentified) (ofText text) :=
  .bind yields_ofDocument

theorem yields_ofLines (number : Nat) (lines : List (List Char)) :
    Yields (∀ span ∈ ·, span.IsIdentified) (ofLines number lines).result := by
  fun_induction ofLines number lines with
  | case1 => exact .nil
  | case2 _ _ _ _ _ ih => exact ih
  | case3 _ _ _ _ _ spans hspans ih => exact .map_append (yields_ofText _ spans hspans) ih
  | case4 _ _ _ _ _ _ _ _ ih => exact ih
  | case5 => exact .error _

theorem yields_ofStream (lines : List (List Char)) :
    Yields (∀ span ∈ ·, span.IsIdentified) (ofStream lines).result := by
  simp only [ofStream]
  split
  · exact .nil
  · split
    · exact yields_ofLines 1 lines
    · exact .error _
    · split
      · rename_i spans hspans
        exact .ok (yields_ofDocument _ spans hspans)
      · split
        · exact .nil
        · exact .error _

end Span

/-- A document or a stream was read as these spans. -/
def Span.AreRead (spans : List Span) : Prop :=
  (∃ text, ofText text = .ok spans) ∨ ∃ lines, (ofStream lines).result = .ok spans

namespace Span.AreRead

variable {spans : List Span} (h : AreRead spans)
include h

theorem isIdentified : ∀ span ∈ spans, span.IsIdentified := by
  rcases h with ⟨text, htext⟩ | ⟨lines, hlines⟩
  · exact yields_ofText text spans htext
  · exact yields_ofStream lines spans hlines

/-- The empty text is no id that two spans share. -/
theorem isSharedId_empty : SpanTree.isSharedId spans "" = false := by
  rw [Bool.eq_false_iff]
  intro hshared
  obtain ⟨span, hspan, _, hid, _⟩ := SpanTree.isSharedId_iff.mp hshared
  exact (h.isIdentified span hspan).id_ne hid

end Span.AreRead

end ServiceMap
