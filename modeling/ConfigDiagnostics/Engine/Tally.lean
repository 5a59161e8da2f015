import ConfigDiagnostics.Registry

/-!
# Counting what became of events

## Main definitions

* `Tally`: how many events ended in which way, and how many diagnostics were reported
* `Tally.record`: the tally with one more event
* `Progress`: a tally of the events that ended, and how many have not
-/

namespace ConfigDiagnostics

/-- How many events ended in which way, and how many diagnostics the handled ones reported. -/
structure Tally where
  handled : Nat := 0
  ignored : Nat := 0
  failed : Nat := 0
  reported : Nat := 0
  deriving DecidableEq, Repr

namespace Tally

/-- The tally with one more event. -/
def record (tally : Tally) : Outcome → Tally
  | .reported count =>
    { tally with handled := tally.handled + 1, reported := tally.reported + count }
  | .unheard => { tally with ignored := tally.ignored + 1 }
  | .unreadable _ => { tally with failed := tally.failed + 1 }
  | .refused _ => { tally with failed := tally.failed + 1 }
  | .crashed => { tally with failed := tally.failed + 1 }

/-- The number of events counted. -/
def events (tally : Tally) : Nat :=
  tally.handled + tally.ignored + tally.failed

@[simp] theorem events_record (tally : Tally) (outcome : Outcome) :
    (tally.record outcome).events = tally.events + 1 := by
  cases outcome <;> simp [record, events] <;> omega

end Tally

/-- How far a run has come: the events that ended, and the number of those that were received and
have not ended. -/
structure Progress where
  tally : Tally := {}
  inFlight : Nat := 0
  deriving DecidableEq, Repr

end ConfigDiagnostics
