import ConfigDiagnostics.Keyword

/-!
# Parameters of a failed rule

For two keywords the validator says more than its message: which property was not declared, or
which values were allowed. The two parameters are named here, apart from what they hold, because
an error may have to say which one is missing its form.

## Main definitions

* `Parameter`: which parameter
* `Params`: the parameters of one failed rule
* `Params.Fits`: the parameters belong to the keyword
-/

namespace ConfigDiagnostics

/-- A parameter that a validator gives along with a keyword. -/
inductive Parameter where
  | additionalProperty
  | allowedValues
  deriving DecidableEq, Repr

namespace Parameter

/-- The keyword to which the parameter belongs. -/
def keyword : Parameter → Keyword
  | additionalProperty => .additionalProperties
  | allowedValues => .enum

/-- The name under which the parameter is given. -/
def name : Parameter → String
  | additionalProperty => "additionalProperty"
  | allowedValues => "allowedValues"

/-- The form in which the parameter is given, with its name. -/
def form (parameter : Parameter) : String :=
  (match parameter with
    | additionalProperty => "a string"
    | allowedValues => "an array") ++ " `" ++ parameter.name ++ "`"

end Parameter

/-- The parameters of one failed rule. -/
inductive Params where
  | none
  | additionalProperty (name : String)
  | allowedValues (values : List String)
  deriving DecidableEq, Repr, Inhabited

/-- The parameters are the keyword's own, or there are none. -/
def Params.Fits : Params → Keyword → Prop
  | .none, _ => True
  | .additionalProperty _, keyword => keyword = Parameter.additionalProperty.keyword
  | .allowedValues _, keyword => keyword = Parameter.allowedValues.keyword

instance (params : Params) (keyword : Keyword) : Decidable (params.Fits keyword) := by
  cases params <;> unfold Params.Fits <;> infer_instance

end ConfigDiagnostics
