import ServiceMap.Failure

/-!
# Warnings

What a reading passed over and why. A reading that may pass things over yields its warnings in order, whether it ends in
a result or in a failure.
-/

namespace ServiceMap

/-- What was passed over in a reading, and why. -/
inductive Warning where
  | document (why : Failure)
  /-- A line of a stream, counted from 1. -/
  | line (number : Nat) (why : Failure)
  /-- An element of a link report that is no object, counted from 0. -/
  | linkNotObject (index : Nat)
  | linkWithoutCalls (index : Nat)
  | link (index : Nat) (why : Failure)
deriving Repr, DecidableEq

def Warning.message : Warning → String
  | document why => "Skipping malformed document: " ++ why.message
  | line number why => s!"Skipping malformed line {number}: " ++ why.message
  | linkNotObject index => s!"Skipping malformed link {index}: not an object"
  | linkWithoutCalls index => s!"Skipping malformed link {index}: missing callCount"
  | link index why => s!"Skipping malformed link {index}: " ++ why.message

/-- What a reading comes to, and what it passed over up to there. -/
structure Reading (α : Type) where
  warnings : List Warning
  result : Except Failure α
deriving Repr, DecidableEq

namespace Reading

variable {α β : Type}

def quiet (result : Except Failure α) : Reading α := ⟨[], result⟩

def warned (warning : Warning) (reading : Reading α) : Reading α := ⟨warning :: reading.warnings, reading.result⟩

def map (f : α → β) (reading : Reading α) : Reading β := ⟨reading.warnings, reading.result.map f⟩

/-- A reading and, if it has a result, the one that follows from it. -/
def bind (reading : Reading α) (next : α → Reading β) : Reading β :=
  match reading.result with
  | .ok a => ⟨reading.warnings ++ (next a).warnings, (next a).result⟩
  | .error e => ⟨reading.warnings, .error e⟩

/-- The readings of the elements of a list one after the other, up to the first failure. -/
def each (read : α → Reading β) : List α → Reading (List β)
  | [] => quiet (.ok [])
  | a :: rest => (read a).bind fun b => (each read rest).map (b :: ·)

end Reading

end ServiceMap
