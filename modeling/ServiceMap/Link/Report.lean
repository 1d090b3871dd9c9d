import ServiceMap.Link.Basic
import ServiceMap.Warning

/-!
# Link reports

Links as a document: an array of objects with the fields `parent`, `child`, `callCount` and `errorCount`, or an object
whose field `data` is such an array. Reports of older tools spell the counts in snake case, and still older ones do not
count errors. A row that cannot be used is passed over with a warning.
-/

namespace ServiceMap.Report

open Json (fieldOrNull firstField?)

def rowOf (record : LinkRecord) : Json :=
  .obj [("parent", .str record.parent), ("child", .str record.child), ("callCount", record.calls.toJson),
    ("errorCount", record.errors.toJson)]

def document (records : List LinkRecord) : Json := .arr (records.map rowOf)

def hasLongCount (record : LinkRecord) : Bool := record.calls.tooLong || record.errors.tooLong

def writeRecords (records : List LinkRecord) : Except Failure String :=
  if records.any hasLongCount then .error .tooLongToWrite
  else .ok (String.ofList (document records).compact)

def write (links : List Link) : Except Failure String := writeRecords (links.map Link.toRecord)

def readRow (fields : List (String × Json)) (calls : Json) : Except Failure Link := do
  let parent := ((fieldOrNull fields "parent").orElse (.str "")).display
  let child := ((fieldOrNull fields "child").orElse (.str "")).display
  let calls ← calls.toInteger
  let errors ← (((firstField? fields ["errorCount", "error_count"]).getD .null).orElse (.int 0)).toInteger
  Link.make parent child calls errors

/-- What a row adds to the links: one link, or nothing but a warning. A count that is out of range ends the reading. -/
def readElement (index : Nat) : Json → Reading (List Link)
  | .obj fields =>
    match (firstField? fields ["callCount", "call_count"]).getD .null with
    | .null => .warned (.linkWithoutCalls index) (.quiet (.ok []))
    | calls =>
      match readRow fields calls with
      | .ok link => .quiet (.ok [link])
      | .error e => if e.skipsRecord then .warned (.link index e) (.quiet (.ok [])) else .quiet (.error e)
  | _ => .warned (.linkNotObject index) (.quiet (.ok []))

/-- The links of rows, the first of them the row with this index. -/
def readRows (index : Nat) : List Json → Reading (List Link)
  | [] => .quiet (.ok [])
  | row :: rows => (readElement index row).bind fun links => (readRows (index + 1) rows).map (links ++ ·)

def read (report : Json) : Reading (List Link) :=
  let rows := match report with
    | .obj fields => fieldOrNull fields "data"
    | v => v
  match rows with
  | .arr rows => readRows 0 rows
  | _ => .quiet (.error .notReport)

def readText (text : String) : Reading (List Link) :=
  match Json.read text with
  | .ok report => read report
  | .error e => .quiet (.error (.unreadable e))

end ServiceMap.Report
