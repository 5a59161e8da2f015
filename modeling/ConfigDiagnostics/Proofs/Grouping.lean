import ConfigDiagnostics.Dialect
import Mathlib.Data.List.Induction

/-!
# Grouping loses nothing

Violations are put into groups one after another, each at the end of its group, and each with its
position. The groups together therefore hold every position once, and in each of them the positions
stay beside their violations.

## Main results

* `Group.flatMap_positions_ofViolations`: the positions of all groups are those of the list
* `Group.isAligned_of_mem`: a group has as many positions as violations
* `Dialect.flatten_sentences`: a dialect says one sentence about each violation
-/

namespace ConfigDiagnostics

namespace Group

variable {groups : List Group}

/-- Adding a violation adds its position, whichever group it goes to. -/
theorem flatMap_positions_add (position : Nat) (violation : Violation) (groups : List Group) :
    ((add position violation groups).flatMap positions).Perm
      (position :: groups.flatMap positions) := by
  rcases add_cases position violation groups with
    ⟨-, hadd⟩ | ⟨before, group, after, rfl, -, hadd⟩
  · rw [hadd, List.flatMap_append]
    exact List.perm_append_singleton _ _
  · -- The position comes last in its group, in the middle of all positions.
    have hmiddle : (before.flatMap positions ++ group.positions ++
        position :: after.flatMap positions).Perm (position ::
          (before.flatMap positions ++ group.positions ++ after.flatMap positions)) :=
      List.perm_middle
    rw [List.append_assoc, List.append_assoc] at hmiddle
    rw [hadd, List.flatMap_append, List.flatMap_append, List.flatMap_cons, List.flatMap_cons,
      push_positions, List.append_assoc, List.singleton_append]
    exact hmiddle

/-- Adding a violation keeps every group aligned, as it goes to the end of both lists. -/
theorem isAligned_add (h : ∀ group ∈ groups, group.IsAligned) (position : Nat)
    (violation : Violation) : ∀ group ∈ add position violation groups, group.IsAligned := by
  rcases add_cases position violation groups with
    ⟨-, hadd⟩ | ⟨before, first, after, rfl, -, hadd⟩
  · rw [hadd, List.forall_mem_append, List.forall_mem_singleton]
    exact ⟨h, (isAligned_empty _).push position violation⟩
  · rw [List.forall_mem_append, List.forall_mem_cons] at h
    obtain ⟨hbefore, hfirst, hafter⟩ := h
    rw [hadd, List.forall_mem_append, List.forall_mem_cons]
    exact ⟨hbefore, hfirst.push position violation, hafter⟩

/-- A last violation is added to the groups of those before it. -/
theorem ofViolations_concat (violations : List Violation) (violation : Violation) :
    ofViolations (violations ++ [violation]) =
      add violations.length violation (ofViolations violations) := by
  rw [ofViolations, List.zipIdx_append, List.foldl_append, Nat.zero_add]
  rfl

theorem flatMap_positions_ofViolations (violations : List Violation) :
    ((ofViolations violations).flatMap positions).Perm (List.range violations.length) := by
  induction violations using List.reverseRecOn with
  | nil => exact .nil
  | append_singleton rest violation ih =>
    rw [ofViolations_concat, List.length_append, List.length_singleton, List.range_succ]
    refine (flatMap_positions_add rest.length violation (ofViolations rest)).trans ?_
    exact (ih.cons rest.length).trans (List.perm_append_singleton _ _).symm

theorem isAligned_of_mem {violations : List Violation} :
    ∀ group ∈ ofViolations violations, group.IsAligned := by
  induction violations using List.reverseRecOn with
  | nil => exact fun _ hgroup => absurd hgroup List.not_mem_nil
  | append_singleton rest violation ih =>
    rw [ofViolations_concat]
    exact isAligned_add ih rest.length violation

end Group

namespace Dialect

/-- The sentences of all groups are those of all positions. -/
theorem flatten_sentences (dialect : Dialect) (violations : List Violation) :
    (dialect.sentences violations).flatten.Perm
      ((List.range violations.length).map (dialect.sentenceAt violations)) := by
  have h := (Group.flatMap_positions_ofViolations violations).map (dialect.sentenceAt violations)
  rw [List.map_flatMap, List.flatMap_def] at h
  -- A sentence is made from a position, so the sentences of a group are its positions mapped.
  have hsentences : dialect.sentences violations = (Group.ofViolations violations).map
      fun group => group.positions.map (dialect.sentenceAt violations) := by
    refine List.map_congr_left fun group hgroup => ?_
    rw [← Group.map_fst_entries (Group.isAligned_of_mem group hgroup), List.map_map]
    rfl
  rwa [hsentences]

theorem length_flatten_sentences (dialect : Dialect) (violations : List Violation) :
    (dialect.sentences violations).flatten.length = violations.length := by
  rw [(dialect.flatten_sentences violations).length_eq, List.length_map, List.length_range]

end Dialect

end ConfigDiagnostics
