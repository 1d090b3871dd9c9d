import ServiceMap.Span.Fields

/-!
# Attributes

A list of attributes, each an object with a `key` and a typed `value`, as a table. The type of a value is the name of the
field that holds it, in snake case or in camel case; if there are several, the first in the order of `textFields`,
`integerFields`, `doubleFields` and `truthFields` counts, and `arrayField` only if there is none of these.
-/

namespace ServiceMap.Attributes

open Json (field? fieldOrNull firstField? elements)

def textFields : List String := ["string_value", "stringValue"]

def integerFields : List String := ["int_value", "intValue"]

def doubleFields : List String := ["double_value", "doubleValue"]

def truthFields : List String := ["bool_value", "boolValue"]

def singleFields : List String := textFields ++ integerFields ++ doubleFields ++ truthFields

/-- The single value that an object of a typed value holds. -/
def single? (fields : List (String × Json)) : Option (Except Failure Json) :=
  match firstField? fields textFields with
  | some v => some (.ok v)
  | none =>
    match firstField? fields integerFields with
    | some v => some (.int <$> v.toInteger)
    | none =>
      match firstField? fields doubleFields with
      | some v => some (.float <$> v.toDouble)
      | none => (firstField? fields truthFields).map fun v => .ok (.bool !v.isBlank)

/-- The name of the field that holds the array: in snake case if the object has it in snake case. -/
def arrayField (fields : List (String × Json)) : String :=
  if (field? fields "array_value").isSome then "array_value" else "arrayValue"

def occursIn (part : List Char) : List Char → Bool
  | [] => part.isEmpty
  | c :: rest => part.isPrefixOf (c :: rest) || occursIn part rest

/-- Why a value that is no object is no typed value. A text or an array can be searched for the name of a field; if the
name is found, no field can be taken all the same. -/
def untypedFailure : Json → Failure
  | .str s =>
    if singleFields.any fun name => occursIn name.toList s.toList then .textIndexed else .noAttribute "str" "get"
  | .arr items =>
    if singleFields.any fun name => items.any (·.isText name) then .arrayIndexed else .noAttribute "list" "get"
  | v => .notSearchable v.typeName

mutual

/-- The value of a typed value. A typed value without any of the fields is null, and an array without elements is
empty. -/
def extract : Json → Except Failure Json
  | .obj fields =>
    match single? fields with
    | some result => result
    | none => extractArray (arrayField fields) fields
  | v => .error (untypedFailure v)

def extractArray (name : String) : List (String × Json) → Except Failure Json
  | [] => .ok .null
  | (key, v) :: rest => if name == key then extractElements v else extractArray name rest

/-- The array that the value of an array field stands for. -/
def extractElements : Json → Except Failure Json
  | .null => .ok .null
  | .obj fields => extractValues fields
  | _ => .ok (.arr [])

/-- The array with the elements in the `values` field. -/
def extractValues : List (String × Json) → Except Failure Json
  | [] => .ok (.arr [])
  | (key, v) :: rest => if "values" == key then .arr <$> extractEach v else extractValues rest

def extractEach : Json → Except Failure (List Json)
  | .arr items => extractAll items
  | v => do
    match ← v.elements with
    | [] => return []
    | first :: _ => .error (untypedFailure first)

def extractAll : List Json → Except Failure (List Json)
  | [] => .ok []
  | item :: items => do
    let v ← extract item
    let vs ← extractAll items
    return v :: vs

end

/-- The table with one more attribute. An attribute without a key, or whose value is no object, adds nothing. The value
is taken before the key is looked at. -/
def addAttribute (table : Table AttributeKey Json) : Json → Except Failure (Table AttributeKey Json)
  | .obj fields =>
    let key := fieldOrNull fields "key"
    match key.isBlank, (field? fields "value").getD (.obj []) with
    | false, .obj value => do
      let v ← extract (.obj value)
      match AttributeKey.ofJson? key with
      | some k => return table.insert k v
      | none => .error (.notKey key.typeName)
    | _, _ => .ok table
  | v => .error (.noAttribute v.typeName "get")

def flatten (attributes : Json) : Except Failure (Table AttributeKey Json) :=
  if attributes.isBlank then .ok .empty
  else do (← attributes.elements).foldlM addAttribute .empty

end ServiceMap.Attributes
