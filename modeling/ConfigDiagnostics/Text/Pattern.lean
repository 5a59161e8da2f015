/-!
# Patterns for texts

A pattern says which texts fit it, and gives names to parts of them. A text may fit a pattern in
several ways, with other parts each time; which way is taken is no matter of the pattern.

## Main definitions

* `Pattern`: patterns for whole texts
* `Pattern.Fits`: a text fits a pattern, with these parts

## Main results

* `Pattern.fits_repeated_anyOnLine_iff`: what is some text on one line
-/

namespace ConfigDiagnostics

/-- A pattern for whole texts. -/
inductive Pattern where
  /-- This text. -/
  | literal (text : String)
  /-- Any one character that does not end a line. -/
  | anyOnLine
  | sequence (first second : Pattern)
  | either (first second : Pattern)
  /-- The pattern once or more. -/
  | repeated (pattern : Pattern)
  /-- The pattern, with a name for what fits it. -/
  | part (name : String) (pattern : Pattern)
  deriving DecidableEq, Repr

namespace Pattern

/-- The characters fit the pattern, with the named parts in the order in which they begin. -/
inductive Fits : Pattern → List Char → List (String × List Char) → Prop
  | literal (text : String) : Fits (.literal text) text.toList []
  | anyOnLine {c : Char} : c ≠ '\n' → Fits .anyOnLine [c] []
  | sequence {first second chars others parts otherParts} : Fits first chars parts →
      Fits second others otherParts →
      Fits (.sequence first second) (chars ++ others) (parts ++ otherParts)
  | first {first second chars parts} : Fits first chars parts →
      Fits (.either first second) chars parts
  | second {first second chars parts} : Fits second chars parts →
      Fits (.either first second) chars parts
  | once {pattern chars parts} : Fits pattern chars parts → Fits (.repeated pattern) chars parts
  | again {pattern chars others parts otherParts} : Fits pattern chars parts →
      Fits (.repeated pattern) others otherParts →
      Fits (.repeated pattern) (chars ++ others) (parts ++ otherParts)
  | part {pattern chars parts} (name : String) : Fits pattern chars parts →
      Fits (.part name pattern) chars ((name, chars) :: parts)

variable {first second pattern : Pattern} {text name : String} {chars : List Char}
  {parts : List (String × List Char)}

theorem fits_literal_iff : (literal text).Fits chars parts ↔ chars = text.toList ∧ parts = [] := by
  constructor
  · intro h
    cases h with
    | literal => exact ⟨rfl, rfl⟩
  · rintro ⟨rfl, rfl⟩
    exact .literal text

theorem fits_sequence_iff : (sequence first second).Fits chars parts ↔
    ∃ front back frontParts backParts, first.Fits front frontParts ∧
      second.Fits back backParts ∧ chars = front ++ back ∧ parts = frontParts ++ backParts := by
  constructor
  · intro h
    cases h with
    | sequence hfirst hsecond => exact ⟨_, _, _, _, hfirst, hsecond, rfl, rfl⟩
  · rintro ⟨front, back, frontParts, backParts, hfirst, hsecond, rfl, rfl⟩
    exact .sequence hfirst hsecond

theorem fits_either_iff : (either first second).Fits chars parts ↔
    first.Fits chars parts ∨ second.Fits chars parts := by
  constructor
  · intro h
    cases h with
    | first h => exact .inl h
    | second h => exact .inr h
  · rintro (h | h)
    · exact .first h
    · exact .second h

theorem fits_part_iff : (part name pattern).Fits chars parts ↔
    ∃ inner, pattern.Fits chars inner ∧ parts = (name, chars) :: inner := by
  constructor
  · intro h
    cases h with
    | part _ h => exact ⟨_, h, rfl⟩
  · rintro ⟨inner, h, rfl⟩
    exact .part name h

/-- Some characters, none of which ends the line. -/
theorem fits_repeated_anyOnLine_iff : (repeated anyOnLine).Fits chars parts ↔
    (chars ≠ [] ∧ '\n' ∉ chars) ∧ parts = [] := by
  constructor
  · intro h
    -- The induction is on how the characters fit, so the pattern has to be any.
    generalize hpattern : repeated anyOnLine = pattern at h
    induction h with
    | once h =>
      cases hpattern
      cases h with
      | anyOnLine hc => exact ⟨⟨List.cons_ne_nil _ _, by simpa using hc.symm⟩, rfl⟩
    | again h _ _ ih =>
      cases hpattern
      cases h with
      | anyOnLine hc =>
        obtain ⟨⟨_, hothers⟩, rfl⟩ := ih rfl
        refine ⟨⟨List.cons_ne_nil _ _, ?_⟩, rfl⟩
        simpa using ⟨hc.symm, hothers⟩
    | _ => cases hpattern
  · rintro ⟨⟨hne, hline⟩, rfl⟩
    induction chars with
    | nil => exact absurd rfl hne
    | cons c rest ih =>
      rw [List.mem_cons, not_or] at hline
      obtain ⟨hc, hrest⟩ := hline
      by_cases hnil : rest = []
      · rw [hnil]
        exact .once (.anyOnLine (Ne.symm hc))
      · exact .again (.anyOnLine (Ne.symm hc)) (ih hnil hrest)

end Pattern

end ConfigDiagnostics
