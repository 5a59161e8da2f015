import ConfigDiagnostics.Proofs.Rendering
import Mathlib.Data.List.InsertIdx

/-!
# What the other violations say

Where a violation speaks for all others, its own words and its place among them do not matter: the
others are what is left of the list without it, and they speak in their order. Other failed
alternatives among them are not combined in turn, so no text is made from itself.

## Main definitions

* `Alternatives.Contributes`: what one violation says when it is joined with others
* `Alternatives.Joins`: a text is what violations say, joined by "or"
* `Alternatives.Says`: what is said at a position of a list

## Main results

* `Alternatives.others_insertIdx`: the others are the same wherever a violation is put among them
* `Alternatives.joins_iff`: violations have one joined text
* `Alternatives.says_iff_eq_sentence`: the sentence at a position is what is said there
-/

namespace ConfigDiagnostics.Alternatives

variable {table : TemplateTable} {violations rest : List Violation} {violation : Violation}
  {position : Nat} {text : String}

/-! ### The others -/

/-- Numbered from anywhere, the elements with another number are those at other places. -/
theorem map_fst_filter_zipIdx {α : Type} (list : List α) (first place : Nat) :
    ((list.zipIdx first).filter fun entry => entry.2 ≠ first + place).map Prod.fst =
      list.eraseIdx place := by
  induction list generalizing first place with
  | nil => rfl
  | cons element rest ih =>
    rw [List.zipIdx_cons]
    cases place with
    | zero =>
      -- All later numbers are greater than the first, so nothing else is left out.
      have hkeep : ∀ entry ∈ rest.zipIdx (first + 1), decide (entry.2 ≠ first + 0) = true := by
        intro entry hentry
        have hle := List.le_snd_of_mem_zipIdx hentry
        apply decide_eq_true
        omega
      rw [List.filter_cons_of_neg (by simp), List.filter_eq_self.mpr hkeep, List.zipIdx_map_fst,
        List.eraseIdx_cons_zero]
    | succ place =>
      have hplace : first + (place + 1) = first + 1 + place := by omega
      rw [hplace, List.filter_cons_of_pos, List.map_cons, ih, List.eraseIdx_cons_succ]
      apply decide_eq_true
      omega

/-- The others are the list without what stands at the position. -/
theorem others_eq_eraseIdx (violations : List Violation) (position : Nat) :
    others violations position = violations.eraseIdx position := by
  have h := map_fst_filter_zipIdx violations 0 position
  rwa [Nat.zero_add] at h

/-- The others are the same wherever a violation is put among them. -/
theorem others_insertIdx (rest : List Violation) (violation : Violation) (position : Nat) :
    others (rest.insertIdx position violation) position = rest := by
  rw [others_eq_eraseIdx, List.eraseIdx_insertIdx_self]

/-- From outside the list all of its violations are others. -/
theorem others_of_length_le (h : violations.length ≤ position) :
    others violations position = violations := by
  rw [others_eq_eraseIdx, List.eraseIdx_of_length_le h]

/-- Where there are others, the sentence is what they say. -/
theorem sentence_of_others_eq (h : others violations position = rest) (hrest : rest ≠ []) :
    sentence table violations position = " or ".intercalate (rest.map table.sentence) := by
  rw [sentence, h]
  cases rest with
  | nil => exact absurd rfl hrest
  | cons first later => rfl

/-! ### Joined texts -/

/-- What a violation says when it is joined with others: its sentence in the table. Where it is
itself one of failed alternatives that is its own message, whatever the table, and not what its
others say. -/
structure Contributes (table : TemplateTable) (violation : Violation) (text : String) : Prop where
  eq_sentence : text = table.sentence violation
  eq_message : violation.keyword = .anyOf → text = violation.message

theorem contributes_iff : Contributes table violation text ↔ text = table.sentence violation := by
  constructor
  · exact Contributes.eq_sentence
  · rintro rfl
    exact ⟨rfl, table.sentence_of_anyOf⟩

/-- The text is what the violations say, joined by "or": each of them once and in order, whatever
property it is at. -/
inductive Joins (table : TemplateTable) : List Violation → String → Prop
  | single {violation : Violation} {text : String} : Contributes table violation text →
      Joins table [violation] text
  | cons {violation : Violation} {rest : List Violation} {text joined : String} :
      Contributes table violation text → Joins table rest joined →
      Joins table (violation :: rest) (text ++ " or " ++ joined)

theorem intercalate_map_cons (h : rest ≠ []) :
    " or ".intercalate ((violation :: rest).map table.sentence) =
      table.sentence violation ++ " or " ++ " or ".intercalate (rest.map table.sentence) := by
  rw [List.map_cons, String.intercalate_cons_of_ne_nil]
  rwa [ne_eq, List.map_eq_nil_iff]

theorem Joins.ne_nil (h : Joins table violations text) : violations ≠ [] := by
  cases h <;> exact List.cons_ne_nil _ _

theorem Joins.eq_intercalate (h : Joins table violations text) :
    text = " or ".intercalate (violations.map table.sentence) := by
  induction h with
  | single hfirst =>
    rw [List.map_singleton, String.intercalate_singleton]
    exact hfirst.eq_sentence
  | cons hfirst hrest ih =>
    rw [intercalate_map_cons hrest.ne_nil, ← ih, ← hfirst.eq_sentence]

theorem joins_intercalate (h : violations ≠ []) :
    Joins table violations (" or ".intercalate (violations.map table.sentence)) := by
  induction violations with
  | nil => exact absurd rfl h
  | cons violation rest ih =>
    have hfirst : Contributes table violation (table.sentence violation) :=
      contributes_iff.mpr rfl
    by_cases hrest : rest = []
    · subst hrest
      rw [List.map_singleton, String.intercalate_singleton]
      exact .single hfirst
    · rw [intercalate_map_cons hrest]
      exact .cons hfirst (ih hrest)

/-- Violations have one joined text, and none if there are no violations. -/
theorem joins_iff : Joins table violations text ↔
    violations ≠ [] ∧ text = " or ".intercalate (violations.map table.sentence) := by
  constructor
  · intro h
    exact ⟨h.ne_nil, h.eq_intercalate⟩
  · rintro ⟨hne, rfl⟩
    exact joins_intercalate hne

/-! ### Positions -/

/-- What is said at a position of a list of violations. -/
inductive Says (table : TemplateTable) : List Violation → Nat → String → Prop
  /-- Put anywhere among others, a violation says what they say, whatever it is itself. -/
  | among {rest : List Violation} {position : Nat} {text : String} (violation : Violation) :
      position ≤ rest.length → Joins table rest text →
      Says table (rest.insertIdx position violation) position text
  /-- Alone it has its own message. -/
  | alone (violation : Violation) : Says table [violation] 0 violation.message
  /-- Outside the list all of its violations say something. -/
  | outside {violations : List Violation} {position : Nat} {text : String} :
      violations.length ≤ position → Joins table violations text →
      Says table violations position text
  /-- Where there are no violations nothing is said. -/
  | nobody (position : Nat) : Says table [] position ""

theorem Says.eq_sentence (h : Says table violations position text) :
    text = sentence table violations position := by
  cases h with
  | among violation _ hjoins =>
    obtain ⟨hne, rfl⟩ := joins_iff.mp hjoins
    rw [sentence_of_others_eq (others_insertIdx _ violation _) hne]
  | alone violation => rfl
  | outside hlength hjoins =>
    obtain ⟨hne, rfl⟩ := joins_iff.mp hjoins
    rw [sentence_of_others_eq (others_of_length_le hlength) hne]
  | nobody position => rfl

theorem says_sentence (table : TemplateTable) (violations : List Violation) (position : Nat) :
    Says table violations position (sentence table violations position) := by
  by_cases hposition : position < violations.length
  · -- The list is its others with the violation of the position put back among them.
    have hinsert := List.insertIdx_eraseIdx_getElem hposition
    have hlength := List.length_eraseIdx_of_lt hposition
    generalize violations[position] = violation at hinsert
    generalize violations.eraseIdx position = rest at hinsert hlength
    subst hinsert
    by_cases hrest : rest = []
    · subst hrest
      obtain rfl : position = 0 := by
        rw [List.length_nil] at hlength
        omega
      exact .alone violation
    · rw [sentence_of_others_eq (others_insertIdx rest violation position) hrest]
      exact .among violation (by omega) (joins_iff.mpr ⟨hrest, rfl⟩)
  · have hlength : violations.length ≤ position := Nat.le_of_not_lt hposition
    by_cases hnone : violations = []
    · subst hnone
      exact .nobody position
    · rw [sentence_of_others_eq (others_of_length_le hlength) hnone]
      exact .outside hlength (joins_iff.mpr ⟨hnone, rfl⟩)

/-- The sentence at a position is what is said there, and nothing else is: what the others say
wherever there are others, and else the message of the violation that is alone. -/
theorem says_iff_eq_sentence (table : TemplateTable) (violations : List Violation)
    (position : Nat) (text : String) :
    Says table violations position text ↔ text = sentence table violations position := by
  constructor
  · exact Says.eq_sentence
  · rintro rfl
    exact says_sentence table violations position

/-- Of two failed alternatives each repeats the message of the other, not what that one says. -/
example : sentence [.type] [.new ⟨"/lib"⟩ .type "should be string",
      .new ⟨"/lib"⟩ .anyOf "should match some", .new ⟨"/target"⟩ .anyOf "should match one"] 1 =
    "'lib' should be string. or should match one" := by
  decide +kernel

end ConfigDiagnostics.Alternatives
