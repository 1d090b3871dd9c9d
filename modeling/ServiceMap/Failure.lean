import ServiceMap.Json.Amount
import ServiceMap.Json.Reader
import ServiceMap.Text.Quoted

/-!
# Failures

Why an operation yields no result. A failure is a cause, not a text: its wording is `Failure.message`, and what becomes
of it depends on its kind. Readers of many records pass over a record whose values are unfit, but a failure of another
kind ends the whole reading.
-/

namespace ServiceMap

/-- Results are compared by what they are: values with values and causes with causes. -/
instance decidableEqResult {ε α : Type} [DecidableEq ε] [DecidableEq α] : DecidableEq (Except ε α)
  | .ok a, .ok b => decidable_of_iff (a = b) (by simp)
  | .error a, .error b => decidable_of_iff (a = b) (by simp)
  | .ok _, .error _ => isFalse (by simp)
  | .error _, .ok _ => isFalse (by simp)

/-- Why a compressed file cannot be unpacked. -/
inductive PackingFault where
  | blockKind
  | storedLength
  | tooManyCodes
  | codeLengths
  | lengthRepeat
  | noEndCode
  | literalCodes
  | distanceCodes
  | literalCode
  | distanceCode
  | distanceTooFar
deriving Repr, DecidableEq

/-- Why an operation yields no result. -/
inductive Failure where
  | unreadable (error : Json.ReadError)
  | notInteger (text : String)
  /-- The integer in the text has more digits than are read. -/
  | tooManyDigits (count : Nat)
  | tooLongToWrite
  | nanToInteger
  | notDouble (text : String)
  | noInteger (typeName : String)
  | noDouble (typeName : String)
  | infinityToInteger
  /-- An integer beyond all doubles was to become a double. -/
  | integerToDouble
  /-- The value has no elements to go through. -/
  | notIterable (typeName : String)
  /-- The value cannot be searched for a field. -/
  | notSearchable (typeName : String)
  /-- The text has the name of a field in it but no fields. -/
  | textIndexed
  /-- The array has the name of a field among its items but no fields. -/
  | arrayIndexed
  /-- The value was asked for something that values of its type do not have: fields if it is no object, or the form in
  lower case if it is no text. -/
  | noAttribute (typeName name : String)
  /-- An array or object was to become a key. -/
  | notKey (typeName : String)
  /-- A span lacks a trace id or an id, which its format has under these names. -/
  | spanWithoutId (traceIdName idName : String)
  | unknownDocument
  | noResourceSpans
  | notReport
  | noSpans
  | noTraceId
  | noValue
  /-- A link needs both names; they are given as diagnostics show them. -/
  | namesRequired (parent child : String)
  | tooFewCalls (calls : Amount)
  | tooFewErrors (errors : Amount)
  | unexpectedArgument (name : String)
  | missingArguments (names : List String)
  /-- A count of a link is no number. -/
  | notComparable (typeName : String)
  /-- A node was to become its own child; its value is given as diagnostics show it. -/
  | ownChild (value : String)
  | alreadyBuilt
  | noOutputName
  | noSuchFile (name : String)
  | isDirectory (name : String)
  | notDirectory (name : String)
  | nameTooLong (name : String)
  | nullInName
  /-- The bytes from `position` on, of which `first` is the first, spell no character. -/
  | notUtf8 (reason : String) (first : UInt8) (position length : Nat)
  | notGzip (magic : List UInt8)
  | unknownCompression
  /-- The unpacked data have another checksum than the file says. -/
  | wrongChecksum (stored computed : Nat)
  /-- The unpacked data have another length than the file says. -/
  | wrongLength
  | truncated
  | damaged (fault : PackingFault)
deriving Repr, DecidableEq

namespace Failure

/-- What a failure is about, which decides what becomes of it. -/
inductive Kind where
  | malformed
  | value
  | argument
  /-- The operation is not allowed in this state. -/
  | operation
  /-- A value has a type that does not fit. -/
  | type
  /-- A value was asked for something that values of its type do not have. -/
  | access
  | range
  | storage
  | ending
  | damage
deriving Repr, DecidableEq

def kind : Failure → Kind
  | unreadable (.misplaced ..) => .malformed
  | unreadable (.tooManyDigits _) | notInteger _ | tooManyDigits _ | tooLongToWrite | nanToInteger | notDouble _
  | spanWithoutId .. | unknownDocument | noResourceSpans | notReport | nullInName | notUtf8 .. => .value
  | noSpans | noTraceId | noValue | namesRequired .. | tooFewCalls _ | tooFewErrors _ => .argument
  | ownChild _ | alreadyBuilt => .operation
  | noInteger _ | noDouble _ | notIterable _ | notSearchable _ | textIndexed | arrayIndexed | notKey _
  | unexpectedArgument _ | missingArguments _ | notComparable _ | noOutputName => .type
  | noAttribute .. => .access
  | infinityToInteger | integerToDouble => .range
  | noSuchFile _ | isDirectory _ | notDirectory _ | nameTooLong _ | notGzip _ | unknownCompression | wrongChecksum ..
  | wrongLength => .storage
  | truncated => .ending
  | damaged _ => .damage

/-- The failure says that a value is unfit, in a text or as an argument or in the state of things. -/
def isUnfitValue (e : Failure) : Bool :=
  match e.kind with
  | .malformed | .value | .argument | .operation => true
  | _ => false

/-- A record with this failure is passed over when many records are read; any other failure ends the reading. -/
def skipsRecord (e : Failure) : Bool := e.isUnfitValue || e.kind == .type

/-! ### Wording -/

/-- What is wrong where reading stops, in words. -/
def problemText : Json.Problem → String
  | .expectingValue => "Expecting value"
  | .expectingName => "Expecting property name enclosed in double quotes"
  | .expectingColon => "Expecting ':' delimiter"
  | .expectingComma => "Expecting ',' delimiter"
  | .unterminatedString => "Unterminated string starting at"
  | .controlCharacter => "Invalid control character at"
  | .invalidEscape => "Invalid \\escape"
  | .invalidCodeEscape => "Invalid \\uXXXX escape"
  | .extraData => "Extra data"
  | .byteOrderMark => "Unexpected UTF-8 BOM (decode using utf-8-sig)"

/-- What is wrong with packed data, in words. -/
def packingText : PackingFault → String
  | .blockKind => "invalid block type"
  | .storedLength => "invalid stored block lengths"
  | .tooManyCodes => "too many length or distance symbols"
  | .codeLengths => "invalid code lengths set"
  | .lengthRepeat => "invalid bit length repeat"
  | .noEndCode => "invalid code -- missing end-of-block"
  | .literalCodes => "invalid literal/lengths set"
  | .distanceCodes => "invalid distances set"
  | .literalCode => "invalid literal/length code"
  | .distanceCode => "invalid distance code"
  | .distanceTooFar => "invalid distance too far back"

/-- The limit on the digits of integers, in words; `detail` says which integer is meant. -/
def digitLimitText (detail : String) : String :=
  s!"Exceeds the limit ({Decimal.maxDigits} digits) for integer string conversion{detail}; " ++
    "use sys.set_int_max_str_digits() to increase the limit"

def hexText (n : Nat) : String := "0x" ++ String.ofList (Text.hexDigits 1 n)

def message : Failure → String
  | unreadable (.misplaced problem place) =>
    s!"{problemText problem}: line {place.line} column {place.column} (char {place.offset})"
  | unreadable (.tooManyDigits count) | tooManyDigits count => digitLimitText s!": value has {count} digits"
  | notInteger text =>
    "invalid literal for int() with base 10: " ++ String.ofList ((Text.quotedChars text.toList).take 200)
  | tooLongToWrite => digitLimitText ""
  | nanToInteger => "cannot convert float NaN to integer"
  | notDouble text => "could not convert string to float: " ++ Text.quoted text
  | noInteger typeName =>
    s!"int() argument must be a string, a bytes-like object or a real number, not '{typeName}'"
  | noDouble typeName => s!"float() argument must be a string or a real number, not '{typeName}'"
  | infinityToInteger => "cannot convert float infinity to integer"
  | integerToDouble => "int too large to convert to float"
  | notIterable typeName => s!"'{typeName}' object is not iterable"
  | notSearchable typeName => s!"argument of type '{typeName}' is not iterable"
  | textIndexed => "string indices must be integers, not 'str'"
  | arrayIndexed => "list indices must be integers or slices, not str"
  | noAttribute typeName name => s!"'{typeName}' object has no attribute '{name}'"
  | notKey typeName => s!"unhashable type: '{typeName}'"
  | spanWithoutId traceIdName idName => s!"Span is missing {traceIdName} or {idName}"
  | unknownDocument => "Document is not a JSON array or object"
  | noResourceSpans => "Missing or invalid resource_spans"
  | notReport => "Link report is not a JSON array"
  | noSpans => "spans were empty"
  | noTraceId => "trace_id == None"
  | noValue => "value == None"
  | namesRequired parent child => s!"parent and child are required: parent={parent}, child={child}"
  | tooFewCalls calls => "call_count < 1: " ++ calls.text
  | tooFewErrors errors => "error_count < 0: " ++ errors.text
  | unexpectedArgument name => s!"DependencyLink.__init__() got an unexpected keyword argument '{name}'"
  | missingArguments names =>
    let arguments := if names.length = 1 then "argument" else "arguments"
    s!"DependencyLink.__init__() missing {names.length} required positional {arguments}: " ++
      " and ".intercalate (names.map fun name => s!"'{name}'")
  | notComparable typeName => s!"'<' not supported between instances of '{typeName}' and 'int'"
  | ownChild value => "circular dependency on " ++ value
  | alreadyBuilt => "build() was already called"
  | noOutputName => "expected str, bytes or os.PathLike object, not NoneType"
  | noSuchFile name => "[Errno 2] No such file or directory: " ++ Text.quoted name
  | isDirectory name => "[Errno 21] Is a directory: " ++ Text.quoted name
  | notDirectory name => "[Errno 20] Not a directory: " ++ Text.quoted name
  | nameTooLong name => "[Errno 36] File name too long: " ++ Text.quoted name
  | nullInName => "embedded null byte"
  | notUtf8 reason first position length =>
    if length = 1 then
      s!"'utf-8' codec can't decode byte 0x{String.ofList (Text.hexDigits 2 first.toNat)} in position {position}: {reason}"
    else s!"'utf-8' codec can't decode bytes in position {position}-{position + length - 1}: {reason}"
  | notGzip magic => s!"Not a gzipped file ({Text.quotedBytes magic})"
  | unknownCompression => "Unknown compression method"
  | wrongChecksum stored computed => s!"CRC check failed {hexText stored} != {hexText computed}"
  | wrongLength => "Incorrect length of data produced"
  | truncated => "Compressed file ended before the end-of-stream marker was reached"
  | damaged fault => "Error -3 while decompressing data: " ++ packingText fault

end Failure

end ServiceMap
