import ConfigDiagnostics.Proofs.StablePartition
import Mathlib.Data.List.Forall2

/-!
# What is said about each violation

A dialect goes through the groups, but what it says about a violation is decided by where the
violation stands in the whole list. As an entry of a group keeps that position, each violation gets
the text that it would get without groups, and every position is asked for once.

## Main definitions

* `Dialect.Combines`: a violation has what the others say for its text
* `Dialect.HasText`: the text for a violation at a position
* `Dialect.Rendering`: what the texts of all groups amount to

## Main results

* `TemplateTable.sentence_of_anyOf`: no template is for failed alternatives
* `Dialect.hasText_iff`: a violation at a position has one text
* `Dialect.eq_sentences_iff`: the texts of a dialect are the ones that fit the groups
-/

namespace ConfigDiagnostics

theorem Template.keyword_ne_anyOf (template : Template) : template.keyword ≠ .anyOf := by
  cases template <;> exact nofun

/-- A violation of alternatives has its own message in every table. -/
theorem TemplateTable.sentence_of_anyOf (table : TemplateTable) {violation : Violation}
    (h : violation.keyword = .anyOf) : table.sentence violation = violation.message := by
  have hnone : table.findSome? (fun template => template.sentence? violation) = none := by
    refine List.findSome?_eq_none_iff.mpr ?_
    intro template _
    have hne : violation.keyword ≠ template.keyword := by
      rw [h]
      exact template.keyword_ne_anyOf.symm
    rw [Template.sentence?, if_neg hne]
  rw [sentence, hnone, Option.getD_none]

namespace Dialect

variable {dialect : Dialect} {violations : List Violation} {violation : Violation}
  {position : Nat} {text : String}

/-- The dialect lets the violation say what all others say. -/
def Combines (dialect : Dialect) (violation : Violation) : Prop :=
  dialect.combinesAlternatives ∧ violation.keyword = .anyOf

/-- The text that the dialect has for a violation at a position of the whole list. -/
inductive HasText (dialect : Dialect) (violations : List Violation) :
    String → Nat × Violation → Prop
  | combined {position : Nat} {violation : Violation} : violations[position]? = some violation →
      dialect.Combines violation →
      HasText dialect violations (Alternatives.sentence dialect.templates violations position)
        (position, violation)
  | alone {position : Nat} {violation : Violation} : violations[position]? = some violation →
      ¬ dialect.Combines violation →
      HasText dialect violations (dialect.templates.sentence violation) (position, violation)

theorem sentenceAt_of_combines (hget : violations[position]? = some violation)
    (h : dialect.Combines violation) : dialect.sentenceAt violations position =
      Alternatives.sentence dialect.templates violations position := by
  simp only [sentenceAt, Alternatives.textAt, hget]
  exact if_pos h

theorem sentenceAt_of_not_combines (hget : violations[position]? = some violation)
    (h : ¬ dialect.Combines violation) :
    dialect.sentenceAt violations position = dialect.templates.sentence violation := by
  simp only [sentenceAt, Alternatives.textAt, hget]
  exact if_neg h

/-- Without combining, alternatives have their own message. -/
theorem sentenceAt_eq_message (hcombines : dialect.combinesAlternatives = false)
    (hget : violations[position]? = some violation) (hkeyword : violation.keyword = .anyOf) :
    dialect.sentenceAt violations position = violation.message := by
  have hnot : ¬ dialect.Combines violation := by
    intro h
    exact Bool.false_ne_true (hcombines.symm.trans h.1)
  rw [sentenceAt_of_not_combines hget hnot]
  exact TemplateTable.sentence_of_anyOf dialect.templates hkeyword

/-- A violation has one text at its position, and none at any other. -/
theorem hasText_iff {entry : Nat × Violation} : dialect.HasText violations text entry ↔
    violations[entry.1]? = some entry.2 ∧ text = dialect.sentenceAt violations entry.1 := by
  constructor
  · intro h
    cases h with
    | combined hget h => exact ⟨hget, (sentenceAt_of_combines hget h).symm⟩
    | alone hget h => exact ⟨hget, (sentenceAt_of_not_combines hget h).symm⟩
  · rintro ⟨hget, rfl⟩
    obtain ⟨position, violation⟩ := entry
    by_cases h : dialect.Combines violation
    · rw [sentenceAt_of_combines hget h]
      exact .combined hget h
    · rw [sentenceAt_of_not_combines hget h]
      exact .alone hget h

/-- What the texts of a dialect amount to, one list for each group. -/
structure Rendering (dialect : Dialect) (violations : List Violation) (texts : List (List String)) :
    Prop where
  /-- There is a list for each group and a text for each of its entries, in order: the text that the
  dialect has for the violation at the position of the entry. -/
  fits : List.Forall₂ (List.Forall₂ (dialect.HasText violations)) texts
    ((Group.ofViolations violations).map Group.entries)
  /-- So the lists are as long as the groups. -/
  map_length_eq : texts.map List.length = (Group.ofViolations violations).map Group.size
  /-- All texts together are those of all positions, each once. -/
  flatten_perm : texts.flatten.Perm
    ((List.range violations.length).map (dialect.sentenceAt violations))
  /-- No position outside the list is asked for. -/
  position_lt : ∀ group ∈ Group.ofViolations violations, ∀ position ∈ group.positions,
    position < violations.length
  /-- A dialect that combines no alternatives leaves them their messages, whatever its templates. -/
  message_eq : dialect.combinesAlternatives = false → ∀ position violation,
    violations[position]? = some violation → violation.keyword = .anyOf →
    ∀ templates, (dialect.withTemplates templates).sentenceAt violations position =
      violation.message
  /-- A violation that is not combined has the same text among all others and at each position. -/
  sentenceAt_eq : ∀ position violation, violations[position]? = some violation →
    ¬ dialect.Combines violation → ∀ (others : List Violation) (place : Nat),
    others[place]? = some violation →
    dialect.sentenceAt others place = dialect.sentenceAt violations position

/-- Each entry of a group gets a text for its own violation, not for another one. -/
theorem fits_sentences (dialect : Dialect) (violations : List Violation) :
    List.Forall₂ (List.Forall₂ (dialect.HasText violations)) (dialect.sentences violations)
      ((Group.ofViolations violations).map Group.entries) := by
  have hpartition := Group.isStablePartition_ofViolations violations
  rw [sentences, List.forall₂_map_left_iff, List.forall₂_map_right_iff, List.forall₂_same]
  intro group hgroup
  rw [List.forall₂_map_left_iff, List.forall₂_same]
  intro entry hentry
  -- The grouping keeps at each position the violation that stands there.
  have hget := (hpartition.entry group hgroup entry.1 entry.2 hentry).1
  exact hasText_iff.mpr ⟨hget, rfl⟩

theorem rendering_sentences (dialect : Dialect) (violations : List Violation) :
    Rendering dialect violations (dialect.sentences violations) where
  fits := dialect.fits_sentences violations
  map_length_eq := by
    rw [sentences, List.map_map]
    refine List.map_congr_left fun group hgroup => ?_
    have haligned := Group.isAligned_of_mem group hgroup
    exact (List.length_map _).trans (Group.length_entries haligned)
  flatten_perm := dialect.flatten_sentences violations
  position_lt group hgroup position hposition := by
    have hmem := List.mem_flatMap.mpr ⟨group, hgroup, hposition⟩
    have hpartition := Group.isStablePartition_ofViolations violations
    exact List.mem_range.mp (hpartition.positions_perm.mem_iff.mp hmem)
  message_eq hcombines position violation hget hkeyword templates :=
    have hcombines' : (dialect.withTemplates templates).combinesAlternatives = false := hcombines
    sentenceAt_eq_message hcombines' hget hkeyword
  sentenceAt_eq position violation hget hnot others place hplace := by
    rw [sentenceAt_of_not_combines hget hnot, sentenceAt_of_not_combines hplace hnot]

/-- The texts of a dialect are the ones that fit the groups, each text the one of its position. -/
theorem eq_sentences_iff (dialect : Dialect) (violations : List Violation)
    (texts : List (List String)) :
    texts = dialect.sentences violations ↔ Rendering dialect violations texts := by
  constructor
  · rintro rfl
    exact rendering_sentences dialect violations
  · intro h
    have heq : List.Forall₂ (fun texts group => texts = group.entries.map fun entry =>
        dialect.sentenceAt violations entry.1) texts (Group.ofViolations violations) := by
      refine (List.forall₂_map_right_iff.mp h.fits).imp ?_
      intro texts group htexts
      rw [← List.forall₂_eq_eq_eq, List.forall₂_map_right_iff]
      exact htexts.imp fun text entry htext => (hasText_iff.mp htext).2
    rw [sentences, ← List.forall₂_eq_eq_eq, List.forall₂_map_right_iff]
    exact heq

end Dialect

end ConfigDiagnostics
