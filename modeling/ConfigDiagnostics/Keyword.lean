/-!
# Schema keywords

A validator names the schema rule that failed by its keyword. Five keywords have a meaning to
this library; the name of any other is kept as it is.

## Main definitions

* `Keyword`: the keyword of a failed rule
* `Keyword.ofName`, `Keyword.name`: a keyword from its spelling, and back
* `Keyword.IsCanonical`: the keyword is the one its name reads as
-/

namespace ConfigDiagnostics

/-- The keyword of a failed schema rule. -/
inductive Keyword where
  | additionalProperties
  | enum
  | type
  | pattern
  | anyOf
  | other (name : String)
  deriving DecidableEq, Repr

namespace Keyword

/-- The keyword that a name denotes. -/
def ofName (name : String) : Keyword :=
  if name = "additionalProperties" then additionalProperties
  else if name = "enum" then enum
  else if name = "type" then type
  else if name = "pattern" then pattern
  else if name = "anyOf" then anyOf
  else other name

/-- The name that denotes a keyword. -/
def name : Keyword → String
  | additionalProperties => "additionalProperties"
  | enum => "enum"
  | type => "type"
  | pattern => "pattern"
  | anyOf => "anyOf"
  | other name => name

/-- The keyword is the one its name reads as: no known name is kept as another. -/
def IsCanonical (keyword : Keyword) : Prop :=
  ofName keyword.name = keyword

instance (keyword : Keyword) : Decidable keyword.IsCanonical :=
  inferInstanceAs (Decidable (_ = _))

@[simp] theorem name_ofName (name : String) : (ofName name).name = name := by
  unfold ofName
  repeat' split
  all_goals simp_all [Keyword.name]

theorem isCanonical_ofName (name : String) : (ofName name).IsCanonical := by
  simp [IsCanonical]

end Keyword

end ConfigDiagnostics
