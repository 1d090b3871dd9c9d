import ServiceMap.Json.Convert
import ServiceMap.Text.LetterCase

/-!
# Links

A link says that one service called another one, how often, and how often that failed. Services are known by names in
lower case. A link has both names and at least one call.

A link that comes from the fields of an object is a record: it obeys the same rules, but its counts stay the amounts that
were given.
-/

namespace ServiceMap

/-- Calls from one service to another. -/
structure Link where
  parent : String
  child : String
  calls : Nat
  errors : Nat
deriving Repr, DecidableEq

namespace Link

def make (parent child : String) (calls errors : Int) : Except Failure Link :=
  if parent.isEmpty || child.isEmpty then .error (.namesRequired (Text.quoted parent) (Text.quoted child))
  else if calls < 1 then .error (.tooFewCalls (.whole calls))
  else if errors < 0 then .error (.tooFewErrors (.whole errors))
  else .ok {
    parent := Text.lower parent
    child := Text.lower child
    calls := calls.toNat
    errors := errors.toNat }

end Link

/-- A link with the counts that were given for it. -/
structure LinkRecord where
  parent : String
  child : String
  calls : Amount
  errors : Amount
deriving Repr, DecidableEq

def Link.toRecord (link : Link) : LinkRecord where
  parent := link.parent
  child := link.child
  calls := .whole link.calls
  errors := .whole link.errors

namespace LinkRecord

/-- A name given as a value, which has to be a text. -/
def nameOf : Json → Except Failure String
  | .str s => .ok s
  | v => .error (.noAttribute v.typeName "lower")

/-- A count given as a value, which has to be a number that is not less than `least`. -/
def countOf (least : Int) (tooFew : Amount → Failure) (v : Json) : Except Failure Amount :=
  match Amount.ofJson? v with
  | some a => if a.isLessThan least then .error (tooFew a) else .ok a
  | none => .error (.notComparable v.typeName)

/-- The record with these names and counts. Both names have to say something before the counts are looked at, and only
then they have to be texts. -/
def ofValues (parent child calls errors : Json) : Except Failure LinkRecord := do
  if parent.isBlank || child.isBlank then .error (.namesRequired parent.quoted child.quoted)
  let calls ← countOf 1 .tooFewCalls calls
  let errors ← countOf 0 .tooFewErrors errors
  return {
    parent := Text.lower (← nameOf parent)
    child := Text.lower (← nameOf child)
    calls, errors }

/-- The record with the fields `parent`, `child`, `call_count` and `error_count` of an object, of which the counts may be
missing. Other fields are refused before missing names are. -/
def ofFields (fields : List (String × Json)) : Except Failure LinkRecord :=
  let known := ["parent", "child", "call_count", "error_count"]
  match fields.find? fun field => !known.contains field.1 with
  | some (name, _) => .error (.unexpectedArgument name)
  | none =>
    match Json.field? fields "parent", Json.field? fields "child" with
    | some parent, some child =>
      ofValues parent child ((Json.field? fields "call_count").getD (.int 1))
        ((Json.field? fields "error_count").getD (.int 0))
    | parent, child =>
      .error (.missingArguments ((if parent.isNone then ["parent"] else []) ++ if child.isNone then ["child"] else []))

end LinkRecord

end ServiceMap
