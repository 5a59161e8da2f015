/-!
# What is wrong with a text that is not JSON

## Main definitions

* `Json.Fault`: the ways in which a text fails to be JSON
* `Json.Fault.text`: their wording
* `Json.MalformedText`: a fault and the line and column where it shows
-/

namespace ConfigDiagnostics.Json

/-- The ways in which a text fails to be JSON. -/
inductive Fault where
  | endInValue
  | endInList
  | endInObject
  | endInString
  | expectedValue
  | expectedColon
  | expectedListEnd
  | expectedObjectEnd
  | expectedKey
  | trailingComma
  | trailingCharacters
  | misspelledWord
  | invalidNumber
  | numberOutOfRange
  | invalidEscape
  | controlInString
  | loneSurrogate
  | unfinishedPair
  | tooDeep
  deriving DecidableEq, Repr

/-- The wording of a fault. -/
def Fault.text : Fault → String
  | endInValue => "EOF while parsing a value"
  | endInList => "EOF while parsing a list"
  | endInObject => "EOF while parsing an object"
  | endInString => "EOF while parsing a string"
  | expectedValue => "expected value"
  | expectedColon => "expected `:`"
  | expectedListEnd => "expected `,` or `]`"
  | expectedObjectEnd => "expected `,` or `\x7d`"
  | expectedKey => "key must be a string"
  | trailingComma => "trailing comma"
  | trailingCharacters => "trailing characters"
  | misspelledWord => "expected ident"
  | invalidNumber => "invalid number"
  | numberOutOfRange => "number out of range"
  | invalidEscape => "invalid escape"
  | controlInString => "control character (\\u0000-\\u001F) found while parsing a string"
  | loneSurrogate => "lone leading surrogate in hex escape"
  | unfinishedPair => "unexpected end of hex escape"
  | tooDeep => "recursion limit exceeded"

/-- A place in a text: its line, counted from one, and the bytes read of that line. -/
structure Place where
  line : Nat
  column : Nat
  deriving DecidableEq, Repr

/-- A text is not JSON: what is wrong, and where it shows. -/
structure MalformedText where
  fault : Fault
  place : Place
  deriving DecidableEq, Repr

/-- The wording of the error, with its place. -/
def MalformedText.message (error : MalformedText) : String :=
  error.fault.text ++ " at line " ++ toString error.place.line ++
    " column " ++ toString error.place.column

end ConfigDiagnostics.Json
