/-!
# Blank characters

The characters that count as white space around a text, and how a text is trimmed of them. Trimming works on both ends
only: blanks inside a text are part of it.
-/

namespace ServiceMap.Text

/-- Spaces of every width, line and paragraph ends, and the control characters that separate lines, fields or records.
The zero-width space, the byte order mark and the Mongolian vowel separator are not blank. -/
def isBlank (c : Char) : Bool :=
  let n := c.toNat
  (0x09 ≤ n && n ≤ 0x0d) || (0x1c ≤ n && n ≤ 0x20) || n == 0x85 || n == 0xa0 || n == 0x1680 ||
    (0x2000 ≤ n && n ≤ 0x200a) || n == 0x2028 || n == 0x2029 || n == 0x202f || n == 0x205f || n == 0x3000

/-- What is left of a text without the characters of a class at its two ends. -/
def trimOf (drop : Char → Bool) (text : List Char) : List Char :=
  ((text.dropWhile drop).reverse.dropWhile drop).reverse

def trim (text : String) : String :=
  String.ofList (trimOf isBlank text.toList)

@[simp] theorem toList_trim (text : String) : (trim text).toList = trimOf isBlank text.toList := by
  simp [trim]

@[simp] theorem trimOf_nil (drop : Char → Bool) : trimOf drop [] = [] := rfl

section Ends

variable {drop : Char → Bool} {text : List Char}

theorem dropWhile_of_head (h : ∀ c ∈ text.head?, drop c = false) : text.dropWhile drop = text := by
  cases text with
  | nil => rfl
  | cons c text => exact List.dropWhile_cons_of_neg (by simp [h c rfl])

theorem trimOf_of_ends (hfront : ∀ c ∈ text.head?, drop c = false) (hback : ∀ c ∈ text.getLast?, drop c = false) :
    trimOf drop text = text := by
  rw [trimOf, dropWhile_of_head hfront, dropWhile_of_head (by rwa [List.head?_reverse]), List.reverse_reverse]

end Ends

end ServiceMap.Text
