import ConfigDiagnostics.Proofs.Wire

/-!
# Well-formed violations

A violation is well-formed if its keyword is the one its name reads as, and its parameters are the
keyword's own. Whatever is read is well-formed: a known name is never kept as another, and the
parameters of other keywords are not even looked at. On the other hand a well-formed violation is
written so that nothing of it is lost.

## Main results

* `Violation.IsWellFormed.of_ofJson`: what is read is well-formed
* `Violation.IsWellFormed.ofJson_toJson`: what is well-formed and written is read back
* `Violation.isWellFormed_iff_read`: to be well-formed, to be read and to be read back are the same
-/

namespace ConfigDiagnostics

namespace Keyword

/-- The names that have a keyword of their own. -/
def knownNames : List String :=
  ["additionalProperties", "enum", "type", "pattern", "anyOf"]

/-- A name is kept as another only if it is not known. -/
theorem ofName_eq_other_iff {name : String} : ofName name = other name ↔ name ∉ knownNames := by
  unfold ofName
  simp only [knownNames, List.mem_cons, List.not_mem_nil, or_false, not_or]
  repeat' split
  all_goals simp_all

theorem isCanonical_iff {keyword : Keyword} :
    keyword.IsCanonical ↔ ∀ name, keyword = other name → name ∉ knownNames := by
  cases keyword with
  | other name =>
    rw [IsCanonical, Keyword.name, ofName_eq_other_iff]
    constructor
    · rintro h _ ⟨⟩
      exact h
    · exact fun h => h name rfl
  | _ =>
    -- A keyword of its own is the one its name reads as, and is none kept by name.
    refine iff_of_true rfl ?_
    intro _ h
    cases h

end Keyword

namespace Violation

variable {violation : Violation} {keyword : Keyword} {given value : Json} {params : Params}

theorem GivesParams.fits (h : GivesParams given keyword params) : params.Fits keyword := by
  cases h with
  | additionalProperty => exact rfl
  | noAdditionalProperty => exact trivial
  | allowedValues => exact rfl
  | noAllowedValues => exact trivial
  | other => exact trivial

/-- What is read is well-formed. -/
theorem IsWellFormed.of_ofJson (h : ofJson value = .ok violation) : violation.IsWellFormed := by
  obtain ⟨name, given, -, hkeyword, hparams⟩ := ofJson_eq_ok_iff.mp h
  refine ⟨?_, (readParams_eq_ok_iff.mp hparams).fits⟩
  rw [hkeyword]
  exact Keyword.isCanonical_ofName name

/-- The parameters of a keyword are found again among the members they are written as. -/
theorem givesParams_paramsJson (h : params.Fits keyword) :
    GivesParams (paramsJson params) keyword params := by
  cases params with
  | none =>
    by_cases hproperties : keyword = .additionalProperties
    · rw [hproperties]
      exact .noAdditionalProperty rfl
    · by_cases henum : keyword = .enum
      · rw [henum]
        exact .noAllowedValues rfl
      · exact .other hproperties henum
  | additionalProperty name =>
    obtain rfl : keyword = .additionalProperties := h
    exact .additionalProperty rfl
  | allowedValues values =>
    obtain rfl : keyword = .enum := h
    -- A value that is a text is shown as it is.
    refine .allowedValues rfl ?_
    rw [List.forall₂_map_left_iff, List.forall₂_same]
    exact fun _ _ => .string

theorem IsWellFormed.records (h : violation.IsWellFormed) :
    Records [("dataPath", .string violation.pointer.raw),
      ("keyword", .string violation.keyword.name), ("message", .string violation.message),
      ("params", paramsJson violation.params), ("data", violation.data)] violation where
  pointer := .dataPath rfl rfl
  keyword := ⟨violation.keyword.name, rfl, h.isCanonical.symm⟩
  message := .inl rfl
  params := givesParams_paramsJson h.fits
  data := rfl

/-- What is well-formed and written is read back. -/
theorem IsWellFormed.ofJson_toJson (h : violation.IsWellFormed) :
    ofJson violation.toJson = .ok violation := by
  have hdistinct : ["dataPath", "keyword", "message", "params", "data"].Nodup := by decide
  refine (ofJson_object_iff ?_).mpr h.records
  exact hdistinct

/-- To be well-formed is to keep no known name as another and no parameters of another keyword. The
violations that can be read, from any value, are the well-formed ones, and just these are read back
from what they are written as. -/
theorem isWellFormed_iff_read (violation : Violation) :
    (violation.IsWellFormed ↔
      (∀ name, violation.keyword = .other name → name ∉ Keyword.knownNames) ∧
        violation.params.Fits violation.keyword) ∧
    ((∃ value, ofJson value = .ok violation) ↔ violation.IsWellFormed) ∧
    (ofJson violation.toJson = .ok violation ↔ violation.IsWellFormed) := by
  refine ⟨?_, ⟨?_, fun h => ⟨_, h.ofJson_toJson⟩⟩, .of_ofJson, IsWellFormed.ofJson_toJson⟩
  · rw [← Keyword.isCanonical_iff]
    exact ⟨fun h => ⟨h.isCanonical, h.fits⟩, fun h => ⟨h.1, h.2⟩⟩
  · rintro ⟨value, h⟩
    exact .of_ofJson h

end Violation

end ConfigDiagnostics
