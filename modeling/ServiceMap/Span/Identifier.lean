import ServiceMap.Json.Writer
import ServiceMap.Text.Blank
import ServiceMap.Text.LetterCase

/-!
# Identifiers

Traces and spans are known by hexadecimal numbers that tools write in several ways. The canonical form is in lower case,
without blanks around it, and filled with zeros to 16 characters, or to 32 if it has more than 16. An identifier can be
any value of a document; one that says nothing has the empty canonical form.
-/

namespace ServiceMap.Identifier

/-- A text filled up to a width with zeros, which stand behind a sign. -/
def zeroFill (width : Nat) (text : List Char) : List Char :=
  let zeros := List.replicate (width - text.length) '0'
  match text with
  | '+' :: rest => '+' :: zeros ++ rest
  | '-' :: rest => '-' :: zeros ++ rest
  | _ => zeros ++ text

/-- The width that an identifier of this length is filled up to. -/
def widthFor (length : Nat) : Nat := if length > 16 then 32 else 16

def canonical (text : String) : String :=
  let id := (Text.lower (Text.trim text)).toList
  if id.isEmpty then "" else String.ofList (zeroFill (widthFor id.length) id)

def normalize (raw : Json) : String := if raw.isBlank then "" else canonical raw.display

/-- The right-most 16 characters of a trace id, which are all of a short one. -/
def lowHalf (traceId : String) : String :=
  let text := traceId.toList
  String.ofList (text.drop (text.length - 16))

end ServiceMap.Identifier
