import ConfigDiagnostics.Engine.Tally
import Mathlib.Algebra.GroupWithZero.Nat
import Mathlib.Data.List.Perm.Basic

/-!
# Adding up outcomes

A tally is a sum over outcomes, so it does not matter in which order they are counted, and it never
shrinks.

## Main definitions

* `Tally.ofOutcomes`: the tally of outcomes
* `Tally.AtMost`: no number in one tally is above that in another

## Main results

* `Tally.ofOutcomes_perm`: the order of the outcomes does not matter
* `Tally.events_ofOutcomes`: every outcome is counted as one event
-/

namespace ConfigDiagnostics

namespace Outcome

/-- The number of diagnostics that were reported, if all were. -/
def count : Outcome → Nat
  | reported count => count
  | _ => 0

/-- All diagnostics of the event were accepted. -/
def isReported : Outcome → Bool
  | reported _ => true
  | _ => false

/-- There was no rule for the event. -/
def isUnheard : Outcome → Bool
  | unheard => true
  | _ => false

/-- The event had no finding, or its diagnostics were not all accepted. -/
def isFailure : Outcome → Bool
  | reported _ => false
  | unheard => false
  | unreadable _ => true
  | refused _ => true
  | crashed => true

end Outcome

namespace Tally

/-- The tally of outcomes. -/
def ofOutcomes (outcomes : List Outcome) : Tally where
  handled := outcomes.countP Outcome.isReported
  ignored := outcomes.countP Outcome.isUnheard
  failed := outcomes.countP Outcome.isFailure
  reported := (outcomes.map Outcome.count).sum

/-- No number in one tally is above that in another. -/
structure AtMost (tally other : Tally) : Prop where
  handled : tally.handled ≤ other.handled
  ignored : tally.ignored ≤ other.ignored
  failed : tally.failed ≤ other.failed
  reported : tally.reported ≤ other.reported

theorem AtMost.refl (tally : Tally) : tally.AtMost tally :=
  ⟨Nat.le_refl _, Nat.le_refl _, Nat.le_refl _, Nat.le_refl _⟩

theorem AtMost.trans {tally other third : Tally} (h : tally.AtMost other)
    (hother : other.AtMost third) : tally.AtMost third where
  handled := Nat.le_trans h.handled hother.handled
  ignored := Nat.le_trans h.ignored hother.ignored
  failed := Nat.le_trans h.failed hother.failed
  reported := Nat.le_trans h.reported hother.reported

theorem atMost_record (tally : Tally) (outcome : Outcome) :
    tally.AtMost (tally.record outcome) := by
  cases outcome with
  | unheard => exact ⟨Nat.le_refl _, Nat.le_succ _, Nat.le_refl _, Nat.le_refl _⟩
  | reported count => exact ⟨Nat.le_succ _, Nat.le_refl _, Nat.le_refl _, Nat.le_add_right ..⟩
  | unreadable error => exact ⟨Nat.le_refl _, Nat.le_refl _, Nat.le_succ _, Nat.le_refl _⟩
  | refused refusals => exact ⟨Nat.le_refl _, Nat.le_refl _, Nat.le_succ _, Nat.le_refl _⟩
  | crashed => exact ⟨Nat.le_refl _, Nat.le_refl _, Nat.le_succ _, Nat.le_refl _⟩

theorem ofOutcomes_cons (outcome : Outcome) (outcomes : List Outcome) :
    ofOutcomes (outcome :: outcomes) = (ofOutcomes outcomes).record outcome := by
  cases outcome <;>
    simp [ofOutcomes, record, List.countP_cons, Outcome.count, Outcome.isReported,
      Outcome.isUnheard, Outcome.isFailure, Nat.add_comm]

/-- Counting outcomes one after another adds up their numbers. -/
theorem foldl_record (outcomes : List Outcome) (tally : Tally) :
    outcomes.foldl record tally =
      { handled := tally.handled + (ofOutcomes outcomes).handled
        ignored := tally.ignored + (ofOutcomes outcomes).ignored
        failed := tally.failed + (ofOutcomes outcomes).failed
        reported := tally.reported + (ofOutcomes outcomes).reported } := by
  induction outcomes generalizing tally with
  | nil => rfl
  | cons outcome rest ih =>
    rw [List.foldl_cons, ih, ofOutcomes_cons]
    -- One number goes up by one, and with a handled event also what was reported.
    cases outcome <;> simp only [record, mk.injEq, true_and, and_true] <;> omega

theorem foldl_record_zero (outcomes : List Outcome) :
    outcomes.foldl record {} = ofOutcomes outcomes := by
  rw [foldl_record]
  simp only [Nat.zero_add]

/-- The order of the outcomes does not matter. -/
theorem ofOutcomes_perm {outcomes others : List Outcome} (h : outcomes.Perm others) :
    ofOutcomes outcomes = ofOutcomes others := by
  rw [ofOutcomes, h.countP_eq, h.countP_eq, h.countP_eq, (h.map Outcome.count).sum_nat]
  rfl

theorem foldl_record_perm {outcomes others : List Outcome} (h : outcomes.Perm others)
    (tally : Tally) : outcomes.foldl record tally = others.foldl record tally := by
  rw [foldl_record, foldl_record, ofOutcomes_perm h]

theorem events_foldl_record (outcomes : List Outcome) (tally : Tally) :
    (outcomes.foldl record tally).events = tally.events + outcomes.length := by
  induction outcomes generalizing tally with
  | nil => rfl
  | cons outcome rest ih =>
    rw [List.foldl_cons, ih, events_record, List.length_cons]
    omega

/-- Every outcome is counted as one event. -/
theorem events_ofOutcomes (outcomes : List Outcome) :
    (ofOutcomes outcomes).events = outcomes.length := by
  rw [← foldl_record_zero, events_foldl_record]
  exact Nat.zero_add _

/-- Only the outcomes of handled events contribute to what was reported. -/
theorem reported_ofOutcomes (outcomes : List Outcome) :
    (ofOutcomes outcomes).reported =
      ((outcomes.filter Outcome.isReported).map Outcome.count).sum := by
  induction outcomes with
  | nil => rfl
  | cons outcome rest ih =>
    rw [ofOutcomes_cons]
    cases outcome with
    | reported count =>
      rw [List.filter_cons_of_pos rfl, List.map_cons, List.sum_cons, ← ih]
      exact Nat.add_comm ..
    | unheard | unreadable _ | refused _ | crashed =>
      rw [List.filter_cons_of_neg Bool.false_ne_true, ← ih]
      rfl

end Tally

end ConfigDiagnostics
