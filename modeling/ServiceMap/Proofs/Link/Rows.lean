import ServiceMap.Link.Report

/-!
# A row of a report costs only itself

What a row of a report yields is decided by the row: one link, or one warning that says its index. The links of a report
are those of its rows in their order, and so are the warnings. There is one exception. A row with an infinite count ends
the reading, and the links of all other rows are lost with it.
-/

namespace ServiceMap

open Json (fieldOrNull firstField?)

namespace Json

def isInfinite : Json → Bool
  | .float (.infinite _) => true
  | _ => false

/-- A value is an integer, or it is infinite, or it is passed over. -/
theorem toInteger_cases (v : Json) :
    (v.isInfinite = true ∧ v.toInteger = .error .infinityToInteger) ∨
      v.isInfinite = false ∧ ((∃ n, v.toInteger = .ok n) ∨ ∃ e, v.toInteger = .error e ∧ e.skipsRecord = true) := by
  cases v with
  | bool b => exact .inr ⟨rfl, .inl ⟨_, rfl⟩⟩
  | int n => exact .inr ⟨rfl, .inl ⟨_, rfl⟩⟩
  | float x =>
    cases x with
    | nan => exact .inr ⟨rfl, .inr ⟨_, rfl, rfl⟩⟩
    | infinite negative => exact .inl ⟨rfl, rfl⟩
    | finite negative m e => exact .inr ⟨rfl, .inl ⟨_, rfl⟩⟩
  | str s =>
    refine .inr ⟨rfl, ?_⟩
    rw [toInteger]
    split
    · exact .inl ⟨_, rfl⟩
    · exact .inr ⟨_, rfl, rfl⟩
    · exact .inr ⟨_, rfl, rfl⟩
  | null => exact .inr ⟨rfl, .inr ⟨_, rfl, rfl⟩⟩
  | arr items => exact .inr ⟨rfl, .inr ⟨_, rfl, rfl⟩⟩
  | obj fields => exact .inr ⟨rfl, .inr ⟨_, rfl, rfl⟩⟩

/-- Infinity says something. -/
theorem isInfinite_orElse (v : Json) (n : Int) : (v.orElse (.int n)).isInfinite = v.isInfinite := by
  rw [orElse]
  split
  · rename_i hblank
    cases v with
    | float x =>
      cases x with
      | infinite negative => cases hblank
      | _ => rfl
    | _ => rfl
  · rfl

end Json

/-- No link is made out of range. -/
theorem Link.skipsRecord_of_make {parent child : String} {calls errors : Int} {e : Failure}
    (h : Link.make parent child calls errors = .error e) : e.skipsRecord = true := by
  unfold Link.make at h
  split at h
  · exact Except.error.inj h ▸ rfl
  split at h
  · exact Except.error.inj h ▸ rfl
  split at h
  · exact Except.error.inj h ▸ rfl
  · cases h

namespace Report

/-- The rows of a report. -/
def rows? : Json → Option (List Json)
  | .arr rows => some rows
  | .obj fields =>
    match fieldOrNull fields "data" with
    | .arr rows => some rows
    | _ => none
  | _ => none

theorem read_of_rows? {report : Json} {rows : List Json} (h : rows? report = some rows) :
    read report = readRows 0 rows := by
  cases report with
  | arr items => exact congrArg (readRows 0) (Option.some.inj h)
  | obj fields =>
    rw [rows?] at h
    rw [read]
    cases hdata : fieldOrNull fields "data" with
    | arr items =>
      rw [hdata] at h
      exact congrArg (readRows 0) (Option.some.inj h)
    | _ => simp [hdata] at h
  | _ => cases h

/-! ### What a row yields -/

/-- Why a row is passed over. -/
inductive RowFault where
  | notObject
  | withoutCalls
  | unfit (why : Failure)
deriving Repr, DecidableEq

namespace RowFault

def warning (index : Nat) : RowFault → Warning
  | notObject => .linkNotObject index
  | withoutCalls => .linkWithoutCalls index
  | unfit why => .link index why

def text : RowFault → String
  | notObject => "not an object"
  | withoutCalls => "missing callCount"
  | unfit why => why.message

theorem message_warning (index : Nat) (fault : RowFault) :
    (fault.warning index).message = s!"Skipping malformed link {index}: " ++ fault.text := by
  cases fault with
  | notObject =>
    have htext : toString ": not an object" = toString ": " ++ "not an object" := by decide
    show s!"Skipping malformed link {index}: not an object" = _ ++ "not an object"
    rw [htext, ← String.append_assoc]
  | withoutCalls =>
    have htext : toString ": missing callCount" = toString ": " ++ "missing callCount" := by decide
    show s!"Skipping malformed link {index}: missing callCount" = _ ++ "missing callCount"
    rw [htext, ← String.append_assoc]
  | unfit why => rfl

end RowFault

def callsOf (fields : List (String × Json)) : Json := (firstField? fields ["callCount", "call_count"]).getD .null

def errorsOf (fields : List (String × Json)) : Json := (firstField? fields ["errorCount", "error_count"]).getD .null

/-- What a row yields, wherever it stands. -/
def outcome : Json → Except RowFault Link
  | .obj fields =>
    match callsOf fields with
    | .null => .error .withoutCalls
    | calls => (readRow fields calls).mapError .unfit
  | _ => .error .notObject

/-- The calls or errors of a row cannot be counted because they are infinite. The errors are counted after the calls. -/
def endsReading : Json → Bool
  | .obj fields =>
    (callsOf fields).isInfinite || ((callsOf fields).toInteger.toOption.isSome && (errorsOf fields).isInfinite)
  | _ => false

theorem readRow_eq (fields : List (String × Json)) (calls : Json) : readRow fields calls = (do
    let calls ← calls.toInteger
    let errors ← ((errorsOf fields).orElse (.int 0)).toInteger
    Link.make ((fieldOrNull fields "parent").orElse (.str "")).display
      ((fieldOrNull fields "child").orElse (.str "")).display calls errors) := rfl

/-- Nothing but an infinite count ends the reading: names are texts whatever they are given as, and a count that is no
integer is passed over, as are names and counts that make no link. -/
theorem readRow_cases (fields : List (String × Json)) :
    (endsReading (.obj fields) = true ∧ readRow fields (callsOf fields) = .error .infinityToInteger) ∨
      endsReading (.obj fields) = false ∧
        ∀ e, readRow fields (callsOf fields) = .error e → e.skipsRecord = true := by
  have herrorCount := ((errorsOf fields).orElse (.int 0)).toInteger_cases
  rw [Json.isInfinite_orElse] at herrorCount
  rw [endsReading, readRow_eq]
  obtain ⟨hinfinite, hcalls⟩ | ⟨hfinite, ⟨calls, hcalls⟩ | ⟨e, hcalls, hskip⟩⟩ := (callsOf fields).toInteger_cases
  · rw [hinfinite, hcalls]
    exact .inl ⟨rfl, rfl⟩
  · rw [hfinite, hcalls]
    obtain ⟨hinfinite, herrors⟩ | ⟨hfinite, ⟨errors, herrors⟩ | ⟨e, herrors, hskip⟩⟩ := herrorCount
    · rw [hinfinite, herrors]
      exact .inl ⟨rfl, rfl⟩
    · rw [hfinite, herrors]
      exact .inr ⟨rfl, fun e he => Link.skipsRecord_of_make he⟩
    · rw [hfinite, herrors]
      exact .inr ⟨rfl, fun other hother => Except.error.inj hother ▸ hskip⟩
  · rw [hfinite, hcalls]
    exact .inr ⟨rfl, fun other hother => Except.error.inj hother ▸ hskip⟩

/-! ### What rows yield -/

/-- The links that rows yield, in the order of the rows. -/
def linksOf (rows : List Json) : List Link := rows.filterMap fun row => (outcome row).toOption

/-- The warnings that rows yield, the first of the rows with this index, in the order of the rows. -/
def warningsOf (index : Nat) (rows : List Json) : List Warning :=
  (rows.zipIdx index).filterMap fun (row, i) =>
    match outcome row with
    | .ok _ => none
    | .error fault => some (fault.warning i)

theorem linksOf_append (xs ys : List Json) : linksOf (xs ++ ys) = linksOf xs ++ linksOf ys :=
  List.filterMap_append

theorem yield_ok {row : Json} {link : Link} (h : outcome row = .ok link) (index : Nat) (rows : List Json) :
    linksOf (row :: rows) = link :: linksOf rows ∧
      warningsOf index (row :: rows) = warningsOf (index + 1) rows := by
  simp [linksOf, warningsOf, h, Except.toOption]

theorem yield_error {row : Json} {fault : RowFault} (h : outcome row = .error fault) (index : Nat)
    (rows : List Json) : linksOf (row :: rows) = linksOf rows ∧
      warningsOf index (row :: rows) = fault.warning index :: warningsOf (index + 1) rows := by
  simp [linksOf, warningsOf, h, Except.toOption]

/-- A row yields one link or one warning. -/
theorem length_linksOf_add_warningsOf (index : Nat) (rows : List Json) :
    (linksOf rows).length + (warningsOf index rows).length = rows.length := by
  induction rows generalizing index with
  | nil => rfl
  | cons row rows ih =>
    have hrest := ih (index + 1)
    cases hrow : outcome row with
    | ok link =>
      obtain ⟨hlinks, hwarnings⟩ := yield_ok hrow index rows
      rw [hlinks, hwarnings, List.length_cons, List.length_cons]
      omega
    | error fault =>
      obtain ⟨hlinks, hwarnings⟩ := yield_error hrow index rows
      rw [hlinks, hwarnings, List.length_cons, List.length_cons]
      omega

/-! ### Reading -/

theorem readElement_eq (index : Nat) (row : Json) : readElement index row =
    if endsReading row then .quiet (.error .infinityToInteger)
    else match outcome row with
      | .ok link => .quiet (.ok [link])
      | .error fault => .warned (fault.warning index) (.quiet (.ok [])) := by
  cases row with
  | obj fields =>
    by_cases hnull : callsOf fields = .null
    · rw [readElement, outcome, endsReading, ← callsOf, hnull]
      rfl
    have hrow : outcome (.obj fields) = (readRow fields (callsOf fields)).mapError .unfit := by
      rw [outcome]
      split
      · contradiction
      · rfl
    rw [readElement, hrow, ← callsOf]
    split
    · contradiction
    obtain ⟨hends, hread⟩ | ⟨hends, hread⟩ := readRow_cases fields
    · rw [hends, hread]
      rfl
    · rw [hends]
      cases hlink : readRow fields (callsOf fields) with
      | ok link => rfl
      | error e =>
        dsimp only
        rw [if_pos (hread e hlink)]
        rfl
  | _ => rfl

/-- Rows are read each on its own, up to the first one with an infinite count. -/
theorem readRows_eq (index : Nat) (rows : List Json) : readRows index rows =
    ⟨warningsOf index (rows.takeWhile fun row => !endsReading row),
      if rows.any endsReading then .error .infinityToInteger else .ok (linksOf rows)⟩ := by
  induction rows generalizing index with
  | nil => rfl
  | cons row rows ih =>
    rw [readRows, readElement_eq, ih (index + 1), List.takeWhile_cons, List.any_cons]
    cases hends : endsReading row with
    | true => rfl
    | false =>
      simp only [Bool.not_false, if_true, Bool.false_or]
      cases hrow : outcome row with
      | ok link =>
        rw [(yield_ok hrow index rows).1, (yield_ok hrow index _).2]
        cases rows.any endsReading <;> rfl
      | error fault =>
        rw [(yield_error hrow index rows).1, (yield_error hrow index _).2]
        cases rows.any endsReading <;> rfl

/-- The links of a report are those of its front and then those of its rest, if there are any. -/
theorem result_readRows_append (index : Nat) (xs ys : List Json) : (readRows index (xs ++ ys)).result = (do
    let front ← (readRows index xs).result
    let rest ← (readRows index ys).result
    return front ++ rest) := by
  rw [readRows_eq, readRows_eq, readRows_eq, List.any_append, linksOf_append]
  cases xs.any endsReading <;> cases ys.any endsReading <;> rfl

/-- The rows of a report yield one link or one warning each. All of these are the outcome of reading the report, unless
a count is infinite; and what a row yields depends neither on the rows before it nor on those behind it. -/
theorem read_rows {report : Json} {rows : List Json} (h : rows? report = some rows) :
    read report = ⟨warningsOf 0 (rows.takeWhile fun row => !endsReading row),
        if rows.any endsReading then .error .infinityToInteger else .ok (linksOf rows)⟩ ∧
      (linksOf rows).length + (warningsOf 0 rows).length = rows.length ∧
      (∀ (index : Nat) (fault : RowFault),
        (fault.warning index).message = s!"Skipping malformed link {index}: " ++ fault.text) ∧
      ∀ others, (read (.arr (rows ++ others))).result = do
        let links ← (read report).result
        let more ← (read (.arr others)).result
        return links ++ more := by
  rw [read_of_rows? h]
  refine ⟨readRows_eq 0 rows, length_linksOf_add_warningsOf 0 rows, RowFault.message_warning, fun others => ?_⟩
  exact result_readRows_append 0 rows others

/-- Rows that can be used in one way or another, and rows that cannot. -/
def mixedRows : List Json := [
  .obj [("parent", .str "Web"), ("child", .str "API"), ("callCount", .int 3), ("errorCount", .null)],
  .int 5,
  .obj [("parent", .str "web"), ("child", .str "api")],
  .obj [("parent", .str "web"), ("child", .str "api"), ("callCount", .float .nan)],
  .obj [("parent", .arr [.int 1]), ("child", .bool true), ("call_count", .str " 2 "), ("error_count", .bool true)],
  .obj [("parent", .str "web"), ("child", .obj []), ("callCount", .int 1)],
  .obj [("parent", .str "web"), ("child", .str "api"), ("callCount", .arr []), ("errorCount", .float (.infinite true))],
  .obj [("parent", .str "web"), ("child", .str "api"), ("callCount", .int 0)]]

theorem read_rows_mixedRows : rows? (.obj [("data", .arr mixedRows)]) = some mixedRows ∧
    read (.obj [("data", .arr mixedRows)]) =
      ⟨warningsOf 0 mixedRows, .ok [⟨"web", "api", 3, 0⟩, ⟨"[1]", "true", 2, 1⟩]⟩ ∧
    (warningsOf 0 mixedRows).length = 6 := by
  have hrows : rows? (.obj [("data", .arr mixedRows)]) = some mixedRows := rfl
  have hfront : mixedRows.takeWhile (fun row => !endsReading row) = mixedRows := by decide +kernel
  have hnone : mixedRows.any endsReading = false := by decide +kernel
  have hlinks : linksOf mixedRows = [⟨"web", "api", 3, 0⟩, ⟨"[1]", "true", 2, 1⟩] := by decide +kernel
  obtain ⟨hread, hlength, -, -⟩ := read_rows hrows
  rw [hfront, hnone, hlinks] at hread
  rw [hlinks] at hlength
  refine ⟨hrows, hread, ?_⟩
  have hcount : mixedRows.length = 8 := rfl
  rw [List.length_cons, List.length_singleton] at hlength
  omega

/-! ### An infinite count -/

/-- A report of two links, one of them with an infinite number of calls. -/
def infiniteCalls : Json := document [⟨"a", "b", .real (.infinite false), .whole 0⟩, ⟨"c", "d", .whole 1, .whole 0⟩]

/-- The row with the infinite count costs the other one. -/
theorem infiniteCalls_lost : (∃ rows, rows? infiniteCalls = some rows ∧ linksOf rows = [⟨"c", "d", 1, 0⟩]) ∧
    (read infiniteCalls).result = .error .infinityToInteger := by
  refine ⟨⟨_, rfl, ?_⟩, ?_⟩
  · decide +kernel
  · decide +kernel

end Report

end ServiceMap
