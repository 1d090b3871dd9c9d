import ServiceMap.Failure
import ServiceMap.Number.Numeral
import ServiceMap.Json.Writer

/-!
# Values as numbers and as sequences

Fields may hold values of another type than they should. A truth value counts as one or zero, a text as the number it
spells, a double as the integer between zero and it; nothing else is a number.
-/

namespace ServiceMap.Json

def typeName : Json → String
  | .null => "NoneType"
  | .bool _ => "bool"
  | .int _ => "int"
  | .float _ => "float"
  | .str _ => "str"
  | .arr _ => "list"
  | .obj _ => "dict"

def toInteger : Json → Except Failure Int
  | .bool b => .ok (if b then 1 else 0)
  | .int n => .ok n
  | .float .nan => .error .nanToInteger
  | .float x =>
    match x.truncate? with
    | some n => .ok n
    | none => .error .infinityToInteger
  | .str s =>
    match Numeral.readInteger s with
    | .ok n => .ok n
    | .error .notInteger => .error (.notInteger s)
    | .error (.tooManyDigits count) => .error (.tooManyDigits count)
  | v => .error (.noInteger v.typeName)

/-- An integer as the double nearest to it, if that is finite. -/
def doubleOfInt (n : Int) : Except Failure Binary64 :=
  match Binary64.ofInt n with
  | .infinite _ => .error .integerToDouble
  | x => .ok x

def toDouble : Json → Except Failure Binary64
  | .bool b => doubleOfInt (if b then 1 else 0)
  | .int n => doubleOfInt n
  | .float x => .ok x
  | .str s =>
    match Numeral.readDouble s with
    | some x => .ok x
    | none => .error (.notDouble s)
  | v => .error (.noDouble v.typeName)

/-- The elements that going through a value yields: the items of an array, the characters of a text, the names of the
fields of an object. -/
def elements : Json → Except Failure (List Json)
  | .arr items => .ok items
  | .str s => .ok (s.toList.map fun c => .str (String.singleton c))
  | .obj fields => .ok (fields.map fun field => .str field.1)
  | v => .error (.notIterable v.typeName)

/-- A value as a text in which texts stay as they are, truth values are words, and arrays and objects are documents. As in
`display`, integers have no limit here, because those that are read have one. -/
def tagText : Json → String
  | .bool b => if b then "true" else "false"
  | v@(.arr _) | v@(.obj _) => String.ofList v.compact
  | v => v.display

end ServiceMap.Json
