import ConfigDiagnostics.Json.Fault
import ConfigDiagnostics.Json.Value

/-!
# Reading JSON text

The readers below take the characters that are left and give a value with the characters after
it, or stop. A stop says how many bytes of the text lie behind the place where the fault shows;
only at the end is that made into a line and a column, so no reader keeps count of its position.

## Main definitions

* `Json.read`: the JSON value that a text is, or what is wrong with it
* `Json.readValue`: the JSON value at the start of a text, to a depth of brackets
* `Json.placeAfter`: the line and column after so many bytes of a text

## Main results

* `Json.readEscape_length_lt`: reading an escape consumes a character
-/

namespace ConfigDiagnostics.Json

/-- Reading stops: what is wrong, and how many bytes lie behind the place where it shows. -/
structure Stop where
  fault : Fault
  unread : Nat
  deriving DecidableEq, Repr

/-- What a reader gives: a value and the characters after it, or the reason to stop. -/
abbrev Reading (α : Type) := Except Stop (α × List Char)

/-- The length of the characters in UTF-8. -/
def byteCount : List Char → Nat
  | [] => 0
  | c :: rest => c.utf8Size + byteCount rest

/-- Stops at the first byte of what is left, or at the last of the text when nothing is. -/
def stopAt {α : Type} (fault : Fault) (left : List Char) : Reading α :=
  .error ⟨fault, byteCount left - 1⟩

/-- Stops at the byte before what is left. -/
def stopBefore {α : Type} (fault : Fault) (left : List Char) : Reading α :=
  .error ⟨fault, byteCount left⟩

/-- The four characters that may stand between the parts of a JSON text. -/
def isBlank (c : Char) : Bool :=
  c == ' ' || c == '\t' || c == '\n' || c == '\r'

/-- What is left after blanks. -/
def skipBlanks (chars : List Char) : List Char :=
  chars.dropWhile isBlank

/-- Reads the rest of a word, which stands for a value. -/
def readWord (value : Json) : List Char → List Char → Reading Json
  | [], left => .ok (value, left)
  | _ :: _, [] => stopAt .endInValue []
  | expected :: word, c :: left =>
    if c = expected then readWord value word left else stopAt .misspelledWord (c :: left)

/-! ### Numbers -/

/-- The number that a run of digits denotes. -/
def digitsValue (digits : List Char) : Nat :=
  Nat.ofDigitChars 10 digits 0

/-- Appends digits to a number while it fits an unsigned word of 64 bits. Gives the number and how
many digits were not appended: from the first that does not fit on, all are left out. -/
def appendDigits (value : Nat) : List Char → Nat × Nat
  | [] => (value, 0)
  | c :: rest =>
    let next := value * 10 + (c.toNat - '0'.toNat)
    if next ≤ greatestInteger then appendDigits next rest else (value, rest.length + 1)

/-- The decimal that the digits before and after a point are read as. Digits that are left out
before the point still count as places. -/
def readDecimal (whole fraction : List Char) : Decimal :=
  let (value, places) := appendDigits 0 whole
  let (value, unused) := appendDigits value fraction
  ⟨value, places - (fraction.length - unused : Nat)⟩

/-- The float that a decimal is read as; the fault of one that is too great shows at its last
byte. -/
def readFloat (negative : Bool) (number : Decimal) (left : List Char) : Reading Json :=
  match Binary64.ofDecimal? negative number with
  | some value => .ok (.float value, left)
  | none => stopBefore .numberOutOfRange left

/-- Exponents are counted no further than the greatest signed word of 32 bits. -/
def exponentLimit : Nat := 2147483647

/-- The value of the digits at the start, and what is left; none, and what is left after the
digit that takes it past the limit. -/
def readExponentDigits (value : Nat) : List Char → Option Nat × List Char
  | [] => (some value, [])
  | c :: left =>
    if c.isDigit then
      let next := value * 10 + (c.toNat - '0'.toNat)
      if exponentLimit < next then (none, left) else readExponentDigits next left
    else (some value, c :: left)

/-- Scales a number by the exponent whose digits come next. An exponent past the limit makes zero
of a zero and of a number that it divides, and is out of range otherwise. -/
def scaled (negative : Bool) (number : Decimal) (divides : Bool) : List Char → Reading Json
  | [] => stopAt .endInValue []
  | c :: left =>
    if c.isDigit then
      match readExponentDigits 0 (c :: left) with
      | (some value, left) =>
        let power := number.power + if divides then -(value : Int) else value
        readFloat negative ⟨number.coefficient, power⟩ left
      | (none, left) =>
        if number.coefficient = 0 ∨ divides then
          .ok (.float ⟨negative, 0⟩, left.dropWhile Char.isDigit)
        else stopBefore .numberOutOfRange left
    else stopAt .invalidNumber (c :: left)

/-- Reads what follows the mark of an exponent. -/
def readExponent (negative : Bool) (number : Decimal) : List Char → Reading Json
  | '+' :: left => scaled negative number false left
  | '-' :: left => scaled negative number true left
  | left => scaled negative number false left

/-- Reads what follows the point of a number with the given whole digits. -/
def readFraction (negative : Bool) (whole chars : List Char) : Reading Json :=
  let fraction := chars.takeWhile Char.isDigit
  let left := chars.dropWhile Char.isDigit
  if fraction.isEmpty then
    if left.isEmpty then stopAt .endInValue [] else stopAt .invalidNumber left
  else
    let number := readDecimal whole fraction
    match left with
    | 'e' :: left => readExponent negative number left
    | 'E' :: left => readExponent negative number left
    | left => readFloat negative number left

/-- A number without fraction and exponent: an integer where it fits a word, else a float, and a
float too where it is a negative zero. -/
def wholeNumber (negative : Bool) (whole left : List Char) : Reading Json :=
  let value := digitsValue whole
  if negative ∧ value = 0 then .ok (.float ⟨true, 0⟩, left)
  else
    match Integer.ofInt? (if negative then -(value : Int) else value) with
    | some fitting => .ok (.integer fitting, left)
    | none => readFloat negative (readDecimal whole []) left

/-- Reads what follows the whole digits of a number. -/
def readAfterWhole (negative : Bool) (whole : List Char) : List Char → Reading Json
  | '.' :: left => readFraction negative whole left
  | 'e' :: left => readExponent negative (readDecimal whole []) left
  | 'E' :: left => readExponent negative (readDecimal whole []) left
  | left => wholeNumber negative whole left

/-- Reads a number after its sign. A leading zero stands alone. -/
def readNumber (negative : Bool) : List Char → Reading Json
  | [] => stopAt .endInValue []
  | c :: left =>
    if c = '0' then
      if (left.takeWhile Char.isDigit).isEmpty then readAfterWhole negative ['0'] left
      else stopAt .invalidNumber left
    else if c.isDigit then
      readAfterWhole negative (c :: left.takeWhile Char.isDigit) (left.dropWhile Char.isDigit)
    else stopAt .invalidNumber (c :: left)

/-! ### Strings -/

/-- The value of a hexadecimal digit of either case. -/
def hexDigit? (c : Char) : Option Nat :=
  if '0' ≤ c ∧ c ≤ '9' then some (c.toNat - '0'.toNat)
  else if 'a' ≤ c ∧ c ≤ 'f' then some (c.toNat - 'a'.toNat + 10)
  else if 'A' ≤ c ∧ c ≤ 'F' then some (c.toNat - 'A'.toNat + 10)
  else none

/-- The value of four hexadecimal digits. -/
def codeUnit? (a b c d : Char) : Option Nat := do
  let a ← hexDigit? a
  let b ← hexDigit? b
  let c ← hexDigit? c
  let d ← hexDigit? d
  return ((a * 16 + b) * 16 + c) * 16 + d

/-- Reads four hexadecimal digits. Four bytes are looked at together, so whichever is no digit, the
fault shows at the last of them. -/
def readCodeUnit (chars : List Char) : Reading Nat :=
  if byteCount (chars.take 4) < 4 then stopAt .endInString []
  else
    match chars with
    | a :: b :: c :: d :: left =>
      match codeUnit? a b c d with
      | some value => .ok (value, left)
      | none => .error ⟨.invalidEscape, byteCount chars - 4⟩
    | _ => .error ⟨.invalidEscape, byteCount chars - 4⟩

/-- The unit is the first of a surrogate pair. -/
def isHighSurrogate (unit : Nat) : Bool := 0xD800 ≤ unit && unit ≤ 0xDBFF

/-- The unit is the second of a surrogate pair. -/
def isLowSurrogate (unit : Nat) : Bool := 0xDC00 ≤ unit && unit ≤ 0xDFFF

/-- Reads the escape that has to follow the first unit of a surrogate pair, and joins the two. -/
def readLowSurrogate (high : Nat) : List Char → Reading Char
  | [] => stopAt .endInString []
  | '\\' :: [] => stopAt .endInString []
  | '\\' :: 'u' :: left =>
    match readCodeUnit left with
    | .ok (low, left) =>
      if isLowSurrogate low then
        .ok (Char.ofNat (0x10000 + (high - 0xD800) * 0x400 + (low - 0xDC00)), left)
      else stopBefore .loneSurrogate left
    | .error stop => .error stop
  | '\\' :: left => stopAt .unfinishedPair left
  | left => stopAt .unfinishedPair left

/-- Reads a character that is given by its number. -/
def readNumbered (chars : List Char) : Reading Char :=
  match readCodeUnit chars with
  | .ok (unit, left) =>
    if isLowSurrogate unit then stopBefore .loneSurrogate left
    else if isHighSurrogate unit then readLowSurrogate unit left
    else .ok (Char.ofNat unit, left)
  | .error stop => .error stop

/-- The character that a letter stands for after a backslash. -/
def unescaped? (c : Char) : Option Char :=
  if c = '\x22' then some '\x22'
  else if c = '\\' then some '\\'
  else if c = '/' then some '/'
  else if c = 'b' then some '\x08'
  else if c = 'f' then some '\x0c'
  else if c = 'n' then some '\n'
  else if c = 'r' then some '\r'
  else if c = 't' then some '\t'
  else none

/-- Reads what follows a backslash. -/
def readEscape : List Char → Reading Char
  | [] => stopAt .endInString []
  | c :: left =>
    if c = 'u' then readNumbered left
    else
      match unescaped? c with
      | some value => .ok (value, left)
      | none => stopAt .invalidEscape (c :: left)

theorem readCodeUnit_length_lt {chars left : List Char} {unit : Nat}
    (h : readCodeUnit chars = .ok (unit, left)) : left.length < chars.length := by
  unfold readCodeUnit at h
  split at h
  · cases h
  · split at h
    · split at h
      · cases h
        simp
        omega
      · cases h
    · cases h

theorem readLowSurrogate_length_lt {high : Nat} {chars left : List Char} {c : Char}
    (h : readLowSurrogate high chars = .ok (c, left)) : left.length < chars.length := by
  unfold readLowSurrogate at h
  split at h
  · cases h
  · cases h
  · split at h
    · rename_i hunit
      split at h
      · obtain ⟨-, rfl⟩ := by simpa only [Except.ok.injEq, Prod.mk.injEq] using h
        have := readCodeUnit_length_lt hunit
        simp
        omega
      · cases h
    · cases h
  · cases h
  · cases h

theorem readNumbered_length_lt {chars left : List Char} {c : Char}
    (h : readNumbered chars = .ok (c, left)) : left.length < chars.length := by
  unfold readNumbered at h
  split at h
  · rename_i hunit
    have := readCodeUnit_length_lt hunit
    split at h
    · cases h
    · split at h
      · have := readLowSurrogate_length_lt h
        omega
      · obtain ⟨-, rfl⟩ := by simpa only [Except.ok.injEq, Prod.mk.injEq] using h
        exact this
  · cases h

/-- An escape has at least one character. -/
theorem readEscape_length_lt {chars left : List Char} {c : Char}
    (h : readEscape chars = .ok (c, left)) : left.length < chars.length := by
  unfold readEscape at h
  split at h
  · cases h
  · split at h
    · have := readNumbered_length_lt h
      simp
      omega
    · split at h
      · cases h
        simp
      · cases h

/-- Reads a string after its opening quote; `read` holds what has been read of it, last first. -/
def readStringFrom (read : List Char) (chars : List Char) : Reading String :=
  match chars with
  | [] => stopAt .endInString []
  | c :: left =>
    if c = '\x22' then .ok (String.ofList read.reverse, left)
    else if c = '\\' then
      match h : readEscape left with
      | .ok (value, rest) =>
        have := readEscape_length_lt h
        readStringFrom (value :: read) rest
      | .error stop => .error stop
    else if c.toNat < 0x20 then stopAt .controlInString (c :: left)
    else readStringFrom (c :: read) left
termination_by chars.length
decreasing_by
  · simp
    omega
  · simp

/-- Reads a string after its opening quote. -/
def readString (chars : List Char) : Reading String :=
  readStringFrom [] chars

/-! ### Arrays and objects -/

/-- Reads the items of an array from the start of one to the closing bracket; `read` holds the
items before it, last first. Each round consumes a comma, so the characters bound the rounds. -/
def readItems (readItem : List Char → Reading Json) (read : List Json) :
    Nat → List Char → Reading (List Json)
  | 0, chars => stopAt .endInList chars
  | rounds + 1, chars =>
    match readItem chars with
    | .error stop => .error stop
    | .ok (item, left) =>
      match skipBlanks left with
      | [] => stopAt .endInList []
      | ']' :: left => .ok ((item :: read).reverse, left)
      | ',' :: left =>
        match skipBlanks left with
        | [] => stopAt .endInValue []
        | ']' :: left => stopAt .trailingComma (']' :: left)
        | left => readItems readItem (item :: read) rounds left
      | left => stopAt .expectedListEnd left

/-- Reads an array after its opening bracket. -/
def readArray (readItem : List Char → Reading Json) (chars : List Char) : Reading (List Json) :=
  match skipBlanks chars with
  | [] => stopAt .endInList []
  | ']' :: left => .ok ([], left)
  | left => readItems readItem [] (left.length + 1) left

/-- Reads a member after the opening quote of its key. -/
def readMember (readItem : List Char → Reading Json) (chars : List Char) :
    Reading (String × Json) :=
  match readString chars with
  | .error stop => .error stop
  | .ok (key, left) =>
    match skipBlanks left with
    | [] => stopAt .endInObject []
    | ':' :: left =>
      match readItem left with
      | .error stop => .error stop
      | .ok (value, left) => .ok ((key, value), left)
    | left => stopAt .expectedColon left

/-- Reads the members of an object from the key of one, after its quote, to the closing brace;
`read` holds the members before it. -/
def readMembers (readItem : List Char → Reading Json) (read : Members) :
    Nat → List Char → Reading Members
  | 0, chars => stopAt .endInObject chars
  | rounds + 1, chars =>
    match readMember readItem chars with
    | .error stop => .error stop
    | .ok ((key, value), left) =>
      match skipBlanks left with
      | [] => stopAt .endInObject []
      | '\x7d' :: left => .ok (put key value read, left)
      | ',' :: left =>
        match skipBlanks left with
        | [] => stopAt .endInValue []
        | '\x22' :: left => readMembers readItem (put key value read) rounds left
        | '\x7d' :: left => stopAt .trailingComma ('\x7d' :: left)
        | left => stopAt .expectedKey left
      | left => stopAt .expectedObjectEnd left

/-- Reads an object after its opening brace. -/
def readObject (readItem : List Char → Reading Json) (chars : List Char) : Reading Members :=
  match skipBlanks chars with
  | [] => stopAt .endInObject []
  | '\x22' :: left => readMembers readItem [] (left.length + 1) left
  | '\x7d' :: left => .ok ([], left)
  | left => stopAt .expectedKey left

/-! ### Values -/

/-- Reads a value, with `nested` to read what is inside brackets, where brackets may be opened. -/
def readValueWith (nested : Option (List Char → Reading Json)) (chars : List Char) :
    Reading Json :=
  match skipBlanks chars with
  | [] => stopAt .endInValue []
  | c :: left =>
    if c = 'n' then readWord null ['u', 'l', 'l'] left
    else if c = 't' then readWord (bool true) ['r', 'u', 'e'] left
    else if c = 'f' then readWord (bool false) ['a', 'l', 's', 'e'] left
    else if c = '-' then readNumber true left
    else if c.isDigit then readNumber false (c :: left)
    else if c = '\x22' then (readString left).map fun (text, left) => (string text, left)
    else if c = '[' then
      match nested with
      | none => stopAt .tooDeep (c :: left)
      | some readItem => (readArray readItem left).map fun (items, left) => (array items, left)
    else if c = '\x7b' then
      match nested with
      | none => stopAt .tooDeep (c :: left)
      | some readItem =>
        (readObject readItem left).map fun (members, left) => (object members, left)
    else stopAt .expectedValue (c :: left)

/-- Reads a value inside which brackets and braces are nested no deeper than `depth`. -/
def readValue : Nat → List Char → Reading Json
  | 0, chars => readValueWith none chars
  | depth + 1, chars => readValueWith (some (readValue depth)) chars

/-- Reads a text that is one value, with blanks around it. -/
def readDocument (depth : Nat) (chars : List Char) : Except Stop Json :=
  match readValue depth chars with
  | .error stop => .error stop
  | .ok (value, left) =>
    match skipBlanks left with
    | [] => .ok value
    | c :: left => .error ⟨.trailingCharacters, byteCount (c :: left) - 1⟩

/-- The place after so many bytes of the characters, when `place` is where they start. -/
def placeAfterFrom (place : Place) : Nat → List Char → Place
  | _, [] => place
  | bytes, c :: rest =>
    if bytes = 0 then place
    else if c = '\n' then placeAfterFrom ⟨place.line + 1, 0⟩ (bytes - 1) rest
    else if bytes ≤ c.utf8Size then ⟨place.line, place.column + bytes⟩
    else placeAfterFrom ⟨place.line, place.column + c.utf8Size⟩ (bytes - c.utf8Size) rest

/-- The line and column after so many bytes of a text. -/
def placeAfter (bytes : Nat) (chars : List Char) : Place :=
  placeAfterFrom ⟨1, 0⟩ bytes chars

/-- Brackets and braces may be nested this deep in a text. -/
def nestingLimit : Nat := 127

/-- The JSON value that a text is, when brackets and braces are nested no deeper than `depth`. -/
def readTo (depth : Nat) (text : String) : Except MalformedText Json :=
  match readDocument depth text.toList with
  | .ok value => .ok value
  | .error stop =>
    .error ⟨stop.fault, placeAfter (byteCount text.toList - stop.unread) text.toList⟩

/-- The JSON value that a text is. -/
def read (text : String) : Except MalformedText Json :=
  readTo nestingLimit text

end ConfigDiagnostics.Json
