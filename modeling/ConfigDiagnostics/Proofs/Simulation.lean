import ConfigDiagnostics.Proofs.Calls
import ConfigDiagnostics.Registry

/-!
# Sinks that answer alike

Nothing is known of a sink but its replies. So what is sent to one of two sinks that answer alike
is sent to the other too, and ends in the same way, all through the sending of a finding and the
routing of an event.

## Main definitions

* `Sink.Matches`: sinks in related states answer alike and go to related states

## Main results

* `Rule.send_agree`, `Registry.route_agree`: sending and routing end alike on matching sinks
* `Sink.matches_traced`: a sink matches itself with its calls kept
-/

namespace ConfigDiagnostics

variable {σ τ α : Type}

/-- The results are the same, and the states they come with are related. -/
structure Agree (R : σ → τ → Prop) (first : α × σ) (second : α × τ) : Prop where
  result_eq : first.1 = second.1
  related : R first.2 second.2

/-- Sinks in related states answer alike and go to related states. -/
def Sink.Matches (R : σ → τ → Prop) (sink : Sink σ) (other : Sink τ) : Prop :=
  ∀ state state' diagnostic, R state state' →
    Agree R (sink state diagnostic) (other state' diagnostic)

variable {R : σ → τ → Prop} {sink : Sink σ} {other : Sink τ}

namespace Emission

variable (hmatch : Sink.Matches R sink other) {state : σ} {state' : τ}
include hmatch

theorem sendGroup_agree (resource : String) (texts : List String) (hstate : R state state') :
    Agree R (sendGroup sink resource texts state) (sendGroup other resource texts state') := by
  induction texts generalizing state state' with
  | nil => exact ⟨rfl, hstate⟩
  | cons text rest ih =>
    have hstep := hmatch state state' (about resource text) hstate
    rcases hfirst : sink state (about resource text) with ⟨reply, next⟩
    rcases hsecond : other state' (about resource text) with ⟨reply', next'⟩
    rw [hfirst, hsecond] at hstep
    -- The replies are the same, so both go on or both stop.
    obtain ⟨rfl, hnext⟩ := hstep
    cases reply with
    | accepted =>
      simp only [sendGroup, hfirst, hsecond]
      exact ih hnext
    | refused refusal =>
      simp only [sendGroup, hfirst, hsecond]
      exact ⟨rfl, hnext⟩
    | crashed =>
      simp only [sendGroup, hfirst, hsecond]
      exact ⟨rfl, hnext⟩

theorem sendGroups_agree (resource : String) (groups : List (List String))
    (hstate : R state state') :
    Agree R (sendGroups sink resource groups state) (sendGroups other resource groups state') := by
  induction groups generalizing state state' with
  | nil => exact ⟨rfl, hstate⟩
  | cons texts rest ih =>
    have hstep := sendGroup_agree hmatch resource texts hstate
    rcases hfirst : sendGroup sink resource texts state with ⟨reply, next⟩
    rcases hsecond : sendGroup other resource texts state' with ⟨reply', next'⟩
    rw [hfirst, hsecond] at hstep
    obtain ⟨rfl, hnext⟩ := hstep
    -- The next groups are sent from related states again, also after a refusal.
    have hrest := ih hnext
    cases reply with
    | accepted =>
      simp only [sendGroups, hfirst, hsecond]
      exact hrest
    | refused refusal =>
      simp only [sendGroups, hfirst, hsecond]
      exact ⟨congrArg (Option.map (refusal :: ·)) hrest.result_eq, hrest.related⟩
    | crashed =>
      simp only [sendGroups, hfirst, hsecond]
      exact ⟨rfl, hnext⟩

theorem sendViolations_agree (dialect : Dialect) (resource : String) (violations : List Violation)
    (hstate : R state state') :
    Agree R (sendViolations dialect sink resource violations state)
      (sendViolations dialect other resource violations state') := by
  have hgroups := sendGroups_agree hmatch resource (dialect.sentences violations) hstate
  simp only [sendViolations]
  generalize sendGroups sink resource (dialect.sentences violations) state = first at hgroups ⊢
  generalize sendGroups other resource (dialect.sentences violations) state' = second at hgroups ⊢
  obtain ⟨refusals, last⟩ := first
  obtain ⟨refusals', last'⟩ := second
  obtain ⟨rfl, hlast⟩ := hgroups
  cases refusals with
  | none => exact ⟨rfl, hlast⟩
  | some refusals => cases refusals <;> exact ⟨rfl, hlast⟩

theorem sendMalformed_agree (resource message : String) (hstate : R state state') :
    Agree R (sendMalformed sink resource message state)
      (sendMalformed other resource message state') := by
  have hstep := hmatch state state' (about resource message) hstate
  rcases hfirst : sink state (about resource message) with ⟨reply, next⟩
  rcases hsecond : other state' (about resource message) with ⟨reply', next'⟩
  rw [hfirst, hsecond] at hstep
  obtain ⟨rfl, hnext⟩ := hstep
  simp only [sendMalformed, hfirst, hsecond]
  cases reply <;> exact ⟨rfl, hnext⟩

theorem send_agree (dialect : Dialect) (finding : Finding) (hstate : R state state') :
    Agree R (send dialect sink state finding) (send dialect other state' finding) := by
  cases finding with
  | malformed resource message => exact sendMalformed_agree hmatch resource message hstate
  | violations resource violations =>
    exact sendViolations_agree hmatch dialect resource violations hstate

end Emission

variable {ι : Type} [DecidableEq ι] {states : ι → σ} {states' : ι → τ}

/-- The states of all sinks are related. -/
def AllRelated (R : σ → τ → Prop) (states : ι → σ) (states' : ι → τ) : Prop :=
  ∀ index, R (states index) (states' index)

omit [DecidableEq ι] in
theorem AllRelated.apply (h : AllRelated R states states') (index : ι) :
    R (states index) (states' index) :=
  h index

theorem AllRelated.setState (h : AllRelated R states states') (index : ι) {state : σ} {state' : τ}
    (hstate : R state state') :
    AllRelated R (setState states index state) (setState states' index state') := by
  intro other
  by_cases hother : other = index
  · subst hother
    rw [setState_self, setState_self]
    exact hstate
  · rw [setState_of_ne _ _ hother, setState_of_ne _ _ hother]
    exact h other

theorem Rule.send_agree (hmatch : Sink.Matches R sink other) (rule : Rule ι) (finding : Finding)
    (hstates : AllRelated R states states') :
    Agree (AllRelated R) (rule.send sink finding states) (rule.send other finding states') := by
  have h := Emission.send_agree hmatch rule.dialect finding (hstates.apply rule.sink)
  exact ⟨h.result_eq, hstates.setState rule.sink h.related⟩

/-- A sink answers as it does when its calls are kept. -/
theorem Sink.matches_traced (sink : Sink σ) :
    Matches (fun state (traced : σ × List Call) => state = traced.1) sink sink.traced := by
  rintro state ⟨_, trace⟩ diagnostic rfl
  exact ⟨rfl, rfl⟩

/-- What the sending of violations does is seen from what it does when calls are kept. -/
theorem Emission.sendViolations_of_traced {dialect : Dialect} {resource : String}
    {violations : List Violation} {state last : σ} {trace calls : List Call} {delivery : Delivery}
    (h : sendViolations dialect sink.traced resource violations (state, trace) =
      (delivery, last, calls)) :
    sendViolations dialect sink resource violations state = (delivery, last) := by
  have hstate : state = (state, trace).1 := rfl
  have hagree := sendViolations_agree sink.matches_traced dialect resource violations hstate
  rw [h] at hagree
  exact Prod.ext hagree.result_eq hagree.related

end ConfigDiagnostics
