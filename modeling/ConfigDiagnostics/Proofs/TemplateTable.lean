import ConfigDiagnostics.Template
import Mathlib.Data.Option.Basic
import Mathlib.Logic.Function.Basic

/-!
# A table is a set of templates under their keywords

No two templates are for one keyword. So of all templates in a table at most one can write the
sentence of a violation, and neither the order of the table nor how often a template is in it
matters. What a template writes is longer than the message of the violation, so it can be told from
the text whether a template wrote it.

## Main definitions

* `Template.Suits`: the parameters are those that a template needs
* `Template.Applies`: a template is for the violation
* `TemplateTable.Keyed`: what it means for a table to be a set under keywords

## Main results

* `Template.isSome_sentence?_iff`: a template writes a sentence exactly if it applies
* `Template.Applies.unique`: one template at most applies to a violation
* `TemplateTable.sentence_eq_message_iff`: the message stands exactly if no template applies
* `TemplateTable.keyed`: every table is a set under keywords
-/

namespace ConfigDiagnostics

/-- The parameter that is given, if one is. -/
def Params.parameter? : Params → Option Parameter
  | none => Option.none
  | additionalProperty _ => some .additionalProperty
  | allowedValues _ => some .allowedValues

namespace Template

variable {template other : Template} {violation : Violation} {text : String}

/-- The parameter that the sentence of a template shows, if it shows one. -/
def parameter? : Template → Option Parameter
  | additionalProperties => some .additionalProperty
  | enum => some .allowedValues
  | type => none
  | pattern => none

/-- The template has what it needs: it shows no parameter, or the one that is given. -/
def Suits (template : Template) (params : Params) : Prop :=
  ∀ parameter, template.parameter? = some parameter → params.parameter? = some parameter

/-- The template is for the keyword of the violation, and has what it needs. -/
structure Applies (template : Template) (violation : Violation) : Prop where
  keyword_eq : violation.keyword = template.keyword
  suits : template.Suits violation.params

theorem keyword_injective : Function.Injective keyword := by
  intro template other h
  cases template <;> cases other <;> cases h <;> rfl

/-- No template is for a keyword that is not known, whatever its name is. -/
theorem keyword_ne_other (template : Template) (name : String) :
    template.keyword ≠ .other name := by
  cases template <;> exact Keyword.noConfusion

/-- One template at most applies to a violation. -/
theorem Applies.unique (h : template.Applies violation) (hother : other.Applies violation) :
    template = other :=
  keyword_injective (h.keyword_eq.symm.trans hother.keyword_eq)

theorem isSome_body?_iff :
    (template.body? violation).isSome ↔ template.Suits violation.params := by
  unfold body? Suits
  cases template <;> cases violation.params <;> simp [parameter?, Params.parameter?]

/-- A template writes a sentence exactly if it applies. -/
theorem isSome_sentence?_iff :
    (template.sentence? violation).isSome ↔ template.Applies violation := by
  rw [sentence?]
  by_cases hkeyword : violation.keyword = template.keyword
  · rw [if_pos hkeyword, isSome_body?_iff]
    exact ⟨fun hsuits => ⟨hkeyword, hsuits⟩, Applies.suits⟩
  · rw [if_neg hkeyword]
    exact ⟨fun hsome => absurd hsome Bool.false_ne_true, fun h => absurd h.keyword_eq hkeyword⟩

theorem sentence?_eq_none_iff :
    template.sentence? violation = none ↔ ¬ template.Applies violation := by
  rw [← isSome_sentence?_iff, Option.not_isSome_iff_eq_none]

/-- Writing apostrophes for double quotes keeps a text as long as it is. -/
theorem length_withoutDoubleQuotes (text : String) :
    (withoutDoubleQuotes text).length = text.length :=
  String.length_map

/-- Every template shows the message, or one as long, after the property and a blank. -/
theorem length_lt_of_body? (h : template.body? violation = some text) :
    violation.message.length < text.length := by
  have hblank : " ".length = 1 := rfl
  unfold body? at h
  split at h
  case h_5 => cases h
  all_goals
    obtain rfl := Option.some.inj h
    simp only [String.length_append, length_withoutDoubleQuotes]
    omega

theorem sentence?_ne_message (violation : Violation) (template : Template) :
    template.sentence? violation ≠ some violation.message := by
  intro h
  rw [sentence?, Option.ite_none_right_eq_some] at h
  exact Nat.lt_irrefl _ (length_lt_of_body? h.2)

end Template

namespace TemplateTable

variable {table other before after : TemplateTable} {template : Template} {violation : Violation}

theorem covers_iff {keyword : Keyword} :
    table.covers keyword = true ↔ ∃ template ∈ table, keyword = template.keyword := by
  rw [covers, List.any_eq_true]
  simp only [decide_eq_true_eq, eq_comm (a := keyword)]

/-- The template that applies writes the sentence, wherever in the table it is. -/
theorem sentence?_of_applies (hmem : template ∈ table) (h : template.Applies violation) :
    template.sentence? violation = some (table.sentence violation) := by
  have hsome : (table.findSome? fun template => template.sentence? violation).isSome := by
    rw [List.findSome?_isSome_iff]
    exact ⟨template, hmem, Template.isSome_sentence?_iff.mpr h⟩
  obtain ⟨text, htext⟩ := Option.isSome_iff_exists.mp hsome
  -- Whichever template was found first applies too, so it is the same one.
  obtain ⟨found, -, hfound⟩ := List.exists_of_findSome?_eq_some htext
  have happlies : found.Applies violation := by
    rw [← Template.isSome_sentence?_iff, hfound]
    rfl
  rw [happlies.unique h] at hfound
  rw [sentence, htext, hfound, Option.getD_some]

/-- Where no template applies the message stands. -/
theorem sentence_of_forall_not (h : ∀ template ∈ table, ¬ template.Applies violation) :
    table.sentence violation = violation.message := by
  have hnone : (table.findSome? fun template => template.sentence? violation) = none := by
    rw [List.findSome?_eq_none_iff]
    intro template hmem
    exact Template.sentence?_eq_none_iff.mpr (h template hmem)
  rw [sentence, hnone, Option.getD_none]

/-- A template that applies does not write the message, so the message stands exactly if no
template applies. -/
theorem sentence_eq_message_iff :
    table.sentence violation = violation.message ↔
      ∀ template ∈ table, ¬ template.Applies violation := by
  constructor
  · intro heq template hmem happlies
    have hsentence := sentence?_of_applies hmem happlies
    rw [heq] at hsentence
    exact Template.sentence?_ne_message violation template hsentence
  · exact sentence_of_forall_not

/-- A template that applies can be told from the sentence. -/
theorem mem_of_sentence_eq (heq : other.sentence violation = table.sentence violation)
    (happlies : template.Applies violation) (hmem : template ∈ table) : template ∈ other := by
  by_contra hnew
  have hnone : ∀ found ∈ other, ¬ found.Applies violation := by
    intro found hfound hfoundApplies
    exact hnew (hfoundApplies.unique happlies ▸ hfound)
  rw [sentence_of_forall_not hnone, eq_comm, sentence_eq_message_iff] at heq
  exact heq template hmem happlies

/-- Two tables have one sentence for a violation exactly if they have the same of the templates that
apply to it. -/
theorem sentence_eq_sentence_iff : other.sentence violation = table.sentence violation ↔
    ∀ template : Template, template.Applies violation → (template ∈ other ↔ template ∈ table) := by
  constructor
  · intro heq template happlies
    exact ⟨mem_of_sentence_eq heq.symm happlies, mem_of_sentence_eq heq happlies⟩
  · intro h
    by_cases hsome : ∃ template ∈ table, template.Applies violation
    · obtain ⟨template, hmem, happlies⟩ := hsome
      have hsentence := sentence?_of_applies hmem happlies
      rw [sentence?_of_applies ((h template happlies).mpr hmem) happlies] at hsentence
      exact Option.some.inj hsentence
    · have hnone : ∀ template ∈ table, ¬ template.Applies violation :=
        fun template hmem happlies => hsome ⟨template, hmem, happlies⟩
      have hnone' : ∀ template ∈ other, ¬ template.Applies violation :=
        fun template hmem happlies => hnone template ((h template happlies).mp hmem) happlies
      rw [sentence_of_forall_not hnone, sentence_of_forall_not hnone']

theorem mem_insert_iff {found : Template} :
    found ∈ before ++ template :: after ↔ found = template ∨ found ∈ before ++ after := by
  rw [List.perm_middle.mem_iff, List.mem_cons]

/-- A template that is put into a table changes the sentence of a violation exactly if it applies
to the violation and is new. -/
theorem sentence_insert_ne_iff :
    (before ++ template :: after).sentence violation ≠ (before ++ after).sentence violation ↔
      template.Applies violation ∧ template ∉ before ++ after := by
  rw [ne_eq, sentence_eq_sentence_iff]
  constructor
  · intro hnot
    by_contra hkept
    apply hnot
    intro found happlies
    rw [mem_insert_iff, or_iff_right_iff_imp]
    rintro rfl
    by_contra hnew
    exact hkept ⟨happlies, hnew⟩
  · rintro ⟨happlies, hnew⟩ h
    exact hnew ((h template happlies).mp (mem_insert_iff.mpr (.inl rfl)))

theorem sentence_eq_message_iff_covers : table.sentence violation = violation.message ↔
    table.covers violation.keyword = false ∨ ∃ template : Template,
      violation.keyword = template.keyword ∧ ¬ template.Suits violation.params := by
  rw [sentence_eq_message_iff, ← Bool.not_eq_true, covers_iff]
  constructor
  · intro hnone
    by_cases hcovered : ∃ template ∈ table, violation.keyword = template.keyword
    · obtain ⟨template, hmem, hkeyword⟩ := hcovered
      exact .inr ⟨template, hkeyword, fun hsuits => hnone template hmem ⟨hkeyword, hsuits⟩⟩
    · exact .inl hcovered
  · rintro (huncovered | ⟨template, hkeyword, hunsuited⟩) found hmem happlies
    · exact huncovered ⟨found, hmem, happlies.keyword_eq⟩
    · -- The template for the keyword is the one that applies.
      have heq := Template.keyword_injective (happlies.keyword_eq.symm.trans hkeyword)
      exact hunsuited (heq ▸ happlies.suits)

/-- What it means that the table is a set of templates under their keywords, as far as the sentence
of a violation shows. -/
structure Keyed (table : TemplateTable) (violation : Violation) : Prop where
  /-- A table with the same templates has the same sentence, in any order and however often it has
  each of them. -/
  sentence_eq : ∀ other : TemplateTable, (∀ template, template ∈ other ↔ template ∈ table) →
    other.sentence violation = table.sentence violation
  /-- A template that is put anywhere into the table changes the sentence exactly if it is for the
  keyword, it was not in the table, and the violation has the parameter that it shows. -/
  insert_ne_iff : ∀ before template after, table = before ++ after →
    ((before ++ template :: after).sentence violation ≠ table.sentence violation ↔
      violation.keyword = template.keyword ∧ template ∉ table ∧ template.Suits violation.params)
  /-- The table covers the keyword exactly if one of its templates is for it. -/
  covers_iff : table.covers violation.keyword = true ↔
    ∃ template ∈ table, violation.keyword = template.keyword
  /-- The sentence is the message exactly if the keyword is not covered, or its template shows a
  parameter that is not given. -/
  eq_message_iff : table.sentence violation = violation.message ↔
    table.covers violation.keyword = false ∨
      ∃ template : Template, violation.keyword = template.keyword ∧
        ¬ template.Suits violation.params
  /-- Otherwise one template is for the keyword, and the sentence is the one that it writes. -/
  existsUnique_template : table.sentence violation ≠ violation.message →
    ∃! template, template ∈ table ∧ violation.keyword = template.keyword ∧
      template.sentence? violation = some (table.sentence violation)
  /-- No template is for a keyword that is not known, even under a known name. -/
  of_other : ∀ name, violation.keyword = .other name →
    table.covers violation.keyword = false ∧ table.sentence violation = violation.message ∧
      ∀ template : Template, template.sentence? violation = none

/-- Every table is a set of templates under their keywords. -/
theorem keyed (table : TemplateTable) (violation : Violation) : table.Keyed violation where
  sentence_eq other hmem := sentence_eq_sentence_iff.mpr fun template _ => hmem template
  insert_ne_iff := by
    rintro before template after rfl
    rw [sentence_insert_ne_iff]
    constructor
    · rintro ⟨happlies, hnew⟩
      exact ⟨happlies.keyword_eq, hnew, happlies.suits⟩
    · rintro ⟨hkeyword, hnew, hsuits⟩
      exact ⟨⟨hkeyword, hsuits⟩, hnew⟩
  covers_iff := covers_iff
  eq_message_iff := sentence_eq_message_iff_covers
  existsUnique_template hne := by
    rw [ne_eq, sentence_eq_message_iff] at hne
    by_contra hnone
    apply hne
    intro template hmem happlies
    refine hnone ⟨template, ⟨hmem, happlies.keyword_eq, sentence?_of_applies hmem happlies⟩, ?_⟩
    rintro found ⟨-, hkeyword, -⟩
    exact Template.keyword_injective (hkeyword.symm.trans happlies.keyword_eq)
  of_other name hname := by
    have hnot : ∀ template : Template, ¬ template.Applies violation := by
      intro template happlies
      exact template.keyword_ne_other name (happlies.keyword_eq.symm.trans hname)
    refine ⟨?_, sentence_of_forall_not fun template _ => hnot template,
      fun template => Template.sentence?_eq_none_iff.mpr (hnot template)⟩
    rw [← Bool.not_eq_true, covers_iff]
    rintro ⟨template, -, hkeyword⟩
    exact template.keyword_ne_other name (hkeyword.symm.trans hname)

end TemplateTable

end ConfigDiagnostics
