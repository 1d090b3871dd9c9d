import ServiceMap.Link.Report
import ServiceMap.Proofs.Json.Ascii
import ServiceMap.Proofs.Link.Calls

/-!
# Reports are read as they are written

A link between service names with at least one call is read from its row as it is, and so are all links of a report, in
their order and without a warning, unless a count is too long to be written.
-/

namespace ServiceMap

namespace Report

/-- The fields of the row of a link. -/
def fieldsOf (link : Link) : List (String × Json) :=
  [("parent", .str link.parent), ("child", .str link.child), ("callCount", .int link.calls),
    ("errorCount", .int link.errors)]

theorem rowOf_toRecord (link : Link) : rowOf link.toRecord = .obj (fieldsOf link) := rfl

theorem fieldOrNull_fieldsOf (link : Link) : Json.fieldOrNull (fieldsOf link) "parent" = .str link.parent ∧
    Json.fieldOrNull (fieldsOf link) "child" = .str link.child := ⟨rfl, rfl⟩

theorem firstField?_fieldsOf (link : Link) :
    Json.firstField? (fieldsOf link) ["callCount", "call_count"] = some (.int link.calls) ∧
      Json.firstField? (fieldsOf link) ["errorCount", "error_count"] = some (.int link.errors) := ⟨rfl, rfl⟩

theorem readRow_fieldsOf {link : Link} (h : link.IsSound) :
    readRow (fieldsOf link) (.int link.calls) = .ok link := by
  obtain ⟨hparent, hchild⟩ := fieldOrNull_fieldsOf link
  have hcount (n : Nat) : (Json.int n).toInteger = .ok (n : Int) := rfl
  rw [readRow, hparent, hchild, Json.orElse_str, Json.orElse_str, (firstField?_fieldsOf link).2, Option.getD_some,
    Json.orElse_int, hcount, hcount]
  exact h.make_eq

theorem readElement_rowOf {link : Link} (h : link.IsSound) (index : Nat) :
    readElement index (rowOf link.toRecord) = .quiet (.ok [link]) := by
  rw [rowOf_toRecord, readElement, (firstField?_fieldsOf link).1, Option.getD_some]
  simp only [readRow_fieldsOf h]

theorem readRows_map {links : List Link} (h : ∀ link ∈ links, link.IsSound) (index : Nat) :
    readRows index ((links.map Link.toRecord).map rowOf) = .quiet (.ok links) := by
  induction links generalizing index with
  | nil => rfl
  | cons link links ih =>
    have hfirst := readElement_rowOf (h link List.mem_cons_self) index
    have hrest := ih (fun other hother => h other (List.mem_cons_of_mem _ hother)) (index + 1)
    rw [List.map_cons, List.map_cons, readRows, hfirst, hrest]
    rfl

/-- A report holds the links that it was made of. -/
theorem read_document {links : List Link} (h : ∀ link ∈ links, link.IsSound) :
    read (document (links.map Link.toRecord)) = .quiet (.ok links) :=
  readRows_map h 0

theorem isExact_rowOf {link : Link} (h : hasLongCount link.toRecord = false) : (rowOf link.toRecord).IsExact := by
  obtain ⟨hcalls, herrors⟩ := Bool.or_eq_false_iff.mp h
  have hnames : ((fieldsOf link).map (·.1)).Nodup := by
    show ["parent", "child", "callCount", "errorCount"].Nodup
    decide
  exact ⟨hnames, trivial, trivial, hcalls, herrors, trivial⟩

theorem isExact_document {links : List Link} (h : ∀ link ∈ links, hasLongCount link.toRecord = false) :
    (document (links.map Link.toRecord)).IsExact := by
  apply Json.itemsExact_iff.mpr
  intro row hrow
  obtain ⟨record, hrecord, rfl⟩ := List.mem_map.mp hrow
  obtain ⟨link, hlink, rfl⟩ := List.mem_map.mp hrecord
  exact isExact_rowOf (h link hlink)

/-- The text of the report of some links. -/
def textOf (links : List Link) : String := String.ofList (document (links.map Link.toRecord)).compact

theorem write_eq {links : List Link} (h : ∀ link ∈ links, hasLongCount link.toRecord = false) :
    write links = .ok (textOf links) := by
  have hnone : (links.map Link.toRecord).any hasLongCount = false := by
    simpa [List.any_eq_false] using h
  rw [write, writeRecords, hnone]
  rfl

/-- The text of a report is read as the links that it was made of, without a warning. -/
theorem readText_textOf {links : List Link} (hsound : ∀ link ∈ links, link.IsSound)
    (hshort : ∀ link ∈ links, hasLongCount link.toRecord = false) : readText (textOf links) = .quiet (.ok links) := by
  rw [readText, textOf, Json.read_compact (isExact_document hshort)]
  exact read_document hsound

theorem hasLongCount_eq_false_iff {link : Link} : hasLongCount link.toRecord = false ↔
    (Decimal.digits link.calls).length ≤ Decimal.maxDigits ∧ (Decimal.digits link.errors).length ≤ Decimal.maxDigits := by
  rw [hasLongCount, Bool.or_eq_false_iff]
  exact and_congr Decimal.tooLong_eq_false_iff Decimal.tooLong_eq_false_iff

/-- Reading undoes writing: links whose counts are not too long are written as ASCII text, and the document that this
text is holds the same links in the same order, without a warning. -/
theorem read_write {links : List Link} (hmade : ∀ link ∈ links, link.IsMade)
    (hshort : ∀ link ∈ links, (Decimal.digits link.calls).length ≤ Decimal.maxDigits ∧
      (Decimal.digits link.errors).length ≤ Decimal.maxDigits) :
    ∃ text report, write links = .ok text ∧ Text.IsAscii text.toList ∧ Json.read text = .ok report ∧
      read report = .quiet (.ok links) := by
  have hsound : ∀ link ∈ links, link.IsSound := fun link hlink => (hmade link hlink).isSound
  have hcounts : ∀ link ∈ links, hasLongCount link.toRecord = false :=
    fun link hlink => hasLongCount_eq_false_iff.mpr (hshort link hlink)
  refine ⟨textOf links, document (links.map Link.toRecord), write_eq hcounts, ?_, ?_, read_document hsound⟩
  · rw [textOf, String.toList_ofList]
    exact Json.isAscii_compact _
  · exact Json.read_compact (isExact_document hcounts)

/-- Links with names of all sorts: a mark, an escape, a control character, a sigma at the end of a word, and a character
that needs two escapes. -/
def manyNames : List Link := [
  ⟨"ας", "q\"\\\n\x7f😀", 3, 1⟩,
  ⟨"i̇", "ας", 1000000000000000000000000000000, 0⟩,
  ⟨"ας", "q\"\\\n\x7f😀", 1, 2⟩]

theorem read_write_manyNames : (∀ link ∈ manyNames, link.IsMade) ∧
    ∃ text report, write manyNames = .ok text ∧ Text.IsAscii text.toList ∧ Json.read text = .ok report ∧
      read report = .quiet (.ok manyNames) := by
  have hmade : ∀ link ∈ manyNames, link.IsMade := by
    simp only [manyNames, List.forall_mem_cons, List.not_mem_nil, false_implies, implies_true, and_true]
    exact ⟨⟨"ΑΣ", "Q\"\\\n\x7f😀", 3, 1, by decide +kernel⟩,
      ⟨"İ", "Ας", 1000000000000000000000000000000, 0, by decide +kernel⟩,
      ⟨"ας", "q\"\\\n\x7f😀", 1, 2, by decide +kernel⟩⟩
  exact ⟨hmade, read_write hmade (by decide +kernel)⟩

end Report

end ServiceMap
