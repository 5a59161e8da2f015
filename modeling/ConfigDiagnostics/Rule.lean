import ConfigDiagnostics.Emission

/-!
# Rules

A rule sends the findings of one dialect to one sink. It has no options and is always on.

Sinks are named by an index type `ι`, and `ι → σ` has the state of each. A rule touches the state
of its own sink only.

## Main definitions

* `Rule`: a dialect and the sink its findings go to
* `Rule.eventNames`: the events that a rule listens to
* `setState`: the states of sinks, with that of one changed
* `Rule.send`: a finding to the sink of a rule

## Main results

* `Rule.send_of_ne`: a rule leaves the other sinks as they are
-/

namespace ConfigDiagnostics

/-- The states of sinks with that of one sink changed. -/
def setState {ι σ : Type} [DecidableEq ι] (states : ι → σ) (index : ι) (state : σ) : ι → σ :=
  fun other => if other = index then state else states other

section

variable {ι σ : Type} [DecidableEq ι] (states : ι → σ) {index other : ι} (state : σ)

@[simp] theorem setState_self : setState states index state index = state := by
  simp [setState]

theorem setState_of_ne (h : other ≠ index) : setState states index state other = states other := by
  simp [setState, h]

end

/-- A dialect, and the sink to which findings in it are sent. -/
structure Rule (ι : Type) where
  dialect : Dialect
  sink : ι
  deriving DecidableEq, Repr

namespace Rule

variable {ι σ : Type}

/-- The names of the events that a rule listens to. -/
def eventNames (rule : Rule ι) : List EventName :=
  [rule.dialect.eventName .json, rule.dialect.eventName .schema]

variable [DecidableEq ι]

/-- Sends a finding to the sink of a rule, in the dialect of the rule. -/
def send (rule : Rule ι) (sink : Sink σ) (finding : Finding) (states : ι → σ) :
    Delivery × (ι → σ) :=
  let (delivery, state) := Emission.send rule.dialect sink (states rule.sink) finding
  (delivery, setState states rule.sink state)

theorem send_of_ne (rule : Rule ι) (sink : Sink σ) (finding : Finding) (states : ι → σ) {other : ι}
    (h : other ≠ rule.sink) : (rule.send sink finding states).2 other = states other :=
  setState_of_ne states _ h

end Rule

end ConfigDiagnostics
