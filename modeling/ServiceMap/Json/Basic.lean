import ServiceMap.Number.Binary64

/-!
# Documents

A document is a value of the JSON data model in which integers and doubles stay apart: a number without point and
exponent is an integer of any size, every other number is a double, and the doubles include infinity and not-a-number.
The fields of an object stand in the order in which their names first occurred.
-/

namespace ServiceMap

/-- A document or a part of one. -/
inductive Json where
  | null
  | bool (b : Bool)
  | int (n : Int)
  | float (x : Binary64)
  | str (s : String)
  | arr (items : List Json)
  | obj (fields : List (String × Json))
deriving Repr, Inhabited

namespace Json

/-- A field counts as given only if its value says something: null, false, zero, and an empty text, array or object do
not. -/
def isBlank : Json → Bool
  | .null => true
  | .bool b => !b
  | .int n => n == 0
  | .float x => x.isZero
  | .str s => s.isEmpty
  | .arr items => items.isEmpty
  | .obj fields => fields.isEmpty

/-- The value itself if it says something, else the other one. -/
def orElse (v other : Json) : Json := if v.isBlank then other else v

theorem isBlank_str_eq_false {s : String} (h : s ≠ "") : (Json.str s).isBlank = false := by
  simpa [isBlank] using h

theorem orElse_str (s : String) : (Json.str s).orElse (.str "") = .str s := by
  rw [orElse]
  split
  · rename_i hblank
    rw [isBlank, String.isEmpty_iff] at hblank
    rw [hblank]
  · rfl

theorem orElse_int (n : Int) : (Json.int n).orElse (.int 0) = .int n := by
  rw [orElse]
  split
  · rename_i hblank
    rw [isBlank, beq_iff_eq] at hblank
    rw [hblank]
  · rfl

def isText (v : Json) (text : String) : Bool :=
  match v with
  | .str s => s == text
  | _ => false

def field? (fields : List (String × Json)) (name : String) : Option Json := fields.lookup name

/-- The value of a field, null if the object has no such field. -/
def fieldOrNull (fields : List (String × Json)) (name : String) : Json := (field? fields name).getD .null

/-- The value of the first of some fields that the object has. -/
def firstField? (fields : List (String × Json)) (names : List String) : Option Json :=
  names.findSome? (field? fields)

end Json

end ServiceMap
