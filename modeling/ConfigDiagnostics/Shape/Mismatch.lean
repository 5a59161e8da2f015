import ConfigDiagnostics.Json.Compact
import ConfigDiagnostics.Parameter
import ConfigDiagnostics.Text.Quoted

/-!
# Values that do not have the expected shape

A JSON value is read as a record, a list or a text. A mismatch says why that was not possible: it
keeps the cause, and its wording is in one place.

## Main definitions

* `Expected`: what a value was expected to be
* `Mismatch`: why a value could not be read
* `Mismatch.message`: the wording of a mismatch
-/

namespace ConfigDiagnostics

/-- A JSON value as an error mentions it: a scalar with its value, anything else by its kind. -/
def Json.mention : Json → String
  | .null => "null"
  | .bool true => "boolean `true`"
  | .bool false => "boolean `false`"
  | .integer value => "integer `" ++ String.ofList (Json.integerChars value.value) ++ "`"
  | .float value => "floating point `" ++ value.text Json.numberLayout ++ "`"
  | .string value => "string " ++ Text.quoted value
  | .array _ => "sequence"
  | .object _ => "map"

/-- What a value was expected to be. -/
inductive Expected where
  | text
  | list
  | map
  | count
  | record (title : String)
  deriving DecidableEq, Repr

/-- The wording of an expectation. -/
def Expected.wording : Expected → String
  | text => "a string"
  | list => "a sequence"
  | map => "a map"
  | count => "usize"
  | record title => "struct " ++ title

/-- Why a value could not be read. -/
inductive Mismatch where
  | wrongType (found : Json) (expected : Expected)
  | negativeCount (found : Json.Integer)
  | missingField (name : String)
  | duplicateField (name : String)
  | unknownField (name : String) (known : List String)
  | tooFewItems (count : Nat) (title : String) (fields : Nat)
  | tooManyItems (count : Nat)
  | unfitParams (parameter : Parameter)
  deriving Repr

namespace Mismatch

/-- The known names, as the end of a sentence about an unknown one. -/
def alternatives : List String → String
  | [] => "there are no fields"
  | [name] => "expected `" ++ name ++ "`"
  | [first, second] => "expected `" ++ first ++ "` or `" ++ second ++ "`"
  | names => "expected one of " ++ ", ".intercalate (names.map fun name => "`" ++ name ++ "`")

/-- The number of fields, as the end of a sentence about a record. -/
def elements (fields : Nat) : String :=
  toString fields ++ if fields = 1 then " element" else " elements"

/-- The wording of a mismatch. -/
def message : Mismatch → String
  | wrongType found expected =>
    "invalid type: " ++ found.mention ++ ", expected " ++ expected.wording
  | negativeCount found =>
    "invalid value: " ++ (Json.integer found).mention ++ ", expected " ++ Expected.count.wording
  | missingField name => "missing field `" ++ name ++ "`"
  | duplicateField name => "duplicate field `" ++ name ++ "`"
  | unknownField name known => "unknown field `" ++ name ++ "`, " ++ alternatives known
  | tooFewItems count title fields =>
    "invalid length " ++ toString count ++ ", expected " ++ (Expected.record title).wording ++
      " with " ++ elements fields
  | tooManyItems count =>
    "invalid length " ++ toString count ++ ", expected fewer elements in array"
  | unfitParams parameter =>
    "invalid params for keyword '" ++ parameter.keyword.name ++ "': expected " ++ parameter.form

end Mismatch

end ConfigDiagnostics
