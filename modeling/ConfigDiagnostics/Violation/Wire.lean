import ConfigDiagnostics.Shape.Record
import ConfigDiagnostics.Shape.Scalar
import ConfigDiagnostics.Violation

/-!
# Violations as a validator writes them

A validator writes a violation as a JSON record. Of its parameters only the one that belongs to
the keyword is read; the others, and the parameters of every other keyword, count for nothing.

## Main definitions

* `Violation.record`: the fields of a violation's record
* `Violation.ofJson`: a violation from JSON
* `Violation.toJson`: the JSON a violation is written as
-/

namespace ConfigDiagnostics.Violation

/-- The fields of a violation's record. The pointer may go by either of two names. -/
def record : Record (String × String × String × Json × Json × Unit) where
  title := "WireError"
  fields :=
    .cons { name := "dataPath", otherName := some "instancePath", read := Shape.readText,
            fallback := some "" } <|
    .cons { name := "keyword", read := Shape.readText } <|
    .cons { name := "message", read := Shape.readText, fallback := some "" } <|
    .cons { name := "params", read := Shape.readAny, fallback := some .null } <|
    .cons { name := "data", read := Shape.readAny, fallback := some .null } <|
    .nil

/-- The parameters of a keyword, out of all that a validator gave. A parameter that is absent is
no parameter; one in the wrong form is refused. -/
def readParams (keyword : Keyword) (given : Json) : Except Mismatch Params :=
  match keyword with
  | .additionalProperties =>
    match given.get? Parameter.additionalProperty.name with
    | none => .ok .none
    | some (.string name) => .ok (.additionalProperty name)
    | some _ => .error (.unfitParams .additionalProperty)
  | .enum =>
    match given.get? Parameter.allowedValues.name with
    | none => .ok .none
    | some (.array values) => .ok (.allowedValues (values.map Json.displayed))
    | some _ => .error (.unfitParams .allowedValues)
  | _ => .ok .none

/-- A violation from a validator's JSON. -/
def ofJson (value : Json) : Except Mismatch Violation :=
  match record.decode value with
  | .error mismatch => .error mismatch
  | .ok (raw, name, message, given, data, _) =>
    let keyword := Keyword.ofName name
    match readParams keyword given with
    | .error mismatch => .error mismatch
    | .ok params => .ok { pointer := ⟨raw⟩, keyword, message, params, data }

/-- The members that hold the parameters of a violation. -/
def paramsJson : Params → Json
  | .none => .object []
  | .additionalProperty name => .object [(Parameter.additionalProperty.name, .string name)]
  | .allowedValues values =>
    .object [(Parameter.allowedValues.name, .array (values.map Json.string))]

/-- The JSON a violation is written as: every field, under its first name. -/
def toJson (violation : Violation) : Json :=
  .object [
    ("dataPath", .string violation.pointer.raw),
    ("keyword", .string violation.keyword.name),
    ("message", .string violation.message),
    ("params", paramsJson violation.params),
    ("data", violation.data)]

end ConfigDiagnostics.Violation
