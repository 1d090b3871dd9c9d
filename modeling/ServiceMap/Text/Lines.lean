/-!
# Lines

How a sequence of characters or bytes falls into lines. A line keeps its end, so nothing is lost: the lines of a text,
put together again, are the text.
-/

namespace ServiceMap.Text

/-- The parts of a sequence, each of which ends after an element of the class or where the sequence ends. -/
def splitAfter {α : Type} (isEnd : α → Bool) : List α → List (List α)
  | [] => []
  | x :: rest =>
    if isEnd x then [x] :: splitAfter isEnd rest
    else match splitAfter isEnd rest with
      | [] => [[x]]
      | part :: parts => (x :: part) :: parts

@[simp] theorem flatten_splitAfter {α : Type} (isEnd : α → Bool) (l : List α) :
    (splitAfter isEnd l).flatten = l := by
  induction l with
  | nil => rfl
  | cons x rest ih =>
    unfold splitAfter
    split
    · simp [ih]
    · cases h : splitAfter isEnd rest with
      | nil => rw [h] at ih; simpa using ih
      | cons part parts => rw [h] at ih; simpa using ih

def lines (text : List Char) : List (List Char) := splitAfter (· == '\n') text

/-- A text in which every line ends in a line feed alone, whether it ended in a carriage return, in both or in that. -/
def unifyLineEnds : List Char → List Char
  | [] => []
  | '\r' :: '\n' :: rest => '\n' :: unifyLineEnds rest
  | '\r' :: rest => '\n' :: unifyLineEnds rest
  | c :: rest => c :: unifyLineEnds rest

end ServiceMap.Text
