import ConfigDiagnostics.Json.Compact
import ConfigDiagnostics.Parameter
import ConfigDiagnostics.Pointer

/-!
# Violations of a schema

## Main definitions

* `Violation`: one failed rule, with where it failed and what was found there
* `Violation.new`, `Violation.withAdditionalProperty`, `Violation.withAllowedValues`,
  `Violation.withData`: building one in steps
* `Violation.IsWellFormed`: the keyword is canonical and the parameters are its own
-/

namespace ConfigDiagnostics

/-- One failed rule: where, which rule, in the validator's words, with the rule's parameters and
the offending value. -/
structure Violation where
  pointer : Pointer
  keyword : Keyword
  message : String
  params : Params
  data : Json
  deriving Repr

namespace Violation

/-- A violation without parameters and data. -/
def new (pointer : Pointer) (keyword : Keyword) (message : String) : Violation where
  pointer
  keyword
  message
  params := .none
  data := .null

/-- Sets the name of the property that was not declared. -/
def withAdditionalProperty (violation : Violation) (name : String) : Violation :=
  { violation with params := .additionalProperty name }

/-- Sets the values that were allowed. -/
def withAllowedValues (violation : Violation) (values : List String) : Violation :=
  { violation with params := .allowedValues values }

/-- Sets the offending value. -/
def withData (violation : Violation) (data : Json) : Violation :=
  { violation with data }

/-- The property at which the rule failed. -/
def property (violation : Violation) : String :=
  violation.pointer.property

/-- The offending value as a sentence shows it. -/
def dataText (violation : Violation) : String :=
  violation.data.displayed

/-- The keyword is canonical and the parameters are its own. -/
structure IsWellFormed (violation : Violation) : Prop where
  isCanonical : violation.keyword.IsCanonical
  fits : violation.params.Fits violation.keyword

end Violation

end ConfigDiagnostics
