import ConfigDiagnostics.Decimal.Shortest
import ConfigDiagnostics.Json.Value

/-!
# Compact JSON text

The shortest spelling of a JSON value on one line: no blanks, members in their order, and in
strings only the escapes that JSON demands.

## Main definitions

* `Json.compactChars`, `Json.compact`: a value as compact JSON text
* `Json.displayed`: a value as a sentence shows it, a string without its quotes
* `Json.numberLayout`: how floats are written
-/

namespace ConfigDiagnostics.Json

/-- Floats are positional while their leading digit counts hundred-thousandths to thousands of
millions of millions, and always keep a fraction or an exponent, so that no integer reads the
same. -/
def numberLayout : Decimal.Layout where
  leastPositional := -5
  greatestPositional := 15
  wholeEnding := ".0"
  positiveMark := "e+"
  negativeMark := "e-"

/-- A character inside a JSON string. Quote, backslash and control characters are escaped, the
controls by a letter where JSON has one. -/
def escaped (c : Char) : List Char :=
  if c = '\x22' then ['\\', '\x22']
  else if c = '\\' then ['\\', '\\']
  else if c = '\x08' then ['\\', 'b']
  else if c = '\x0c' then ['\\', 'f']
  else if c = '\n' then ['\\', 'n']
  else if c = '\r' then ['\\', 'r']
  else if c = '\t' then ['\\', 't']
  else if c.toNat < 0x20 then
    ['\\', 'u', '0', '0', Nat.digitChar (c.toNat / 16), Nat.digitChar (c.toNat % 16)]
  else [c]

/-- A string between quotes. -/
def stringChars (text : String) : List Char :=
  '\x22' :: text.toList.flatMap escaped ++ ['\x22']

/-- An integer in decimal, with a minus sign where it is negative. -/
def integerChars (value : Int) : List Char :=
  (if value < 0 then ['-'] else []) ++ Nat.toDigits 10 value.natAbs

mutual

/-- The characters of a value's compact text. -/
def compactChars : Json → List Char
  | null => ['n', 'u', 'l', 'l']
  | bool true => ['t', 'r', 'u', 'e']
  | bool false => ['f', 'a', 'l', 's', 'e']
  | integer value => integerChars value.value
  | float value => (value.text numberLayout).toList
  | string value => stringChars value
  | array items => '[' :: itemChars items ++ [']']
  | object members => '\x7b' :: memberChars members ++ ['\x7d']

/-- Items with commas between them. -/
def itemChars : List Json → List Char
  | [] => []
  | [item] => item.compactChars
  | item :: rest => item.compactChars ++ ',' :: itemChars rest

/-- Members with commas between them. -/
def memberChars : List (String × Json) → List Char
  | [] => []
  | [(key, value)] => stringChars key ++ ':' :: value.compactChars
  | (key, value) :: rest => stringChars key ++ ':' :: value.compactChars ++ ',' :: memberChars rest

end

/-- A value as compact JSON text. -/
def compact (value : Json) : String :=
  String.ofList value.compactChars

/-- A value as a sentence shows it: a string as it is, anything else as compact JSON text. -/
def displayed : Json → String
  | string value => value
  | value => value.compact

/-- The value is a string. -/
inductive IsString : Json → Prop
  | string (text : String) : IsString (string text)

theorem displayed_of_not_isString {value : Json} (h : ¬ value.IsString) :
    value.displayed = value.compact := by
  cases value with
  | string text => exact absurd (.string text) h
  | _ => rfl

end ConfigDiagnostics.Json
