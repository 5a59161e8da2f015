import ConfigDiagnostics.Proofs.Routing

/-!
# The calls of an event, one by one

Other events may be handled between two calls that an event makes on its sink. So the handling of an
event is taken apart: what is left of it is either an outcome, or a call and what follows from the
reply. Done from the first call to the last it is the routing of the event.

## Main definitions

* `Script`: what is left of the handling of an event
* `Script.run`, `Script.turn`: doing it all, and doing one call
* `Registry.script`: the handling of an event, before its first call

## Main results

* `Registry.run_script`: doing all calls is routing the event
-/

namespace ConfigDiagnostics

section

variable {ι σ : Type} [DecidableEq ι] (states : ι → σ) (index : ι)

theorem setState_eq_self : setState states index (states index) = states := by
  funext other
  by_cases hother : other = index
  · subst hother
    exact setState_self ..
  · exact setState_of_ne _ _ hother

theorem setState_setState (state next : σ) :
    setState (setState states index state) index next = setState states index next := by
  funext other
  by_cases hother : other = index
  · subst hother
    rw [setState_self, setState_self]
  · rw [setState_of_ne _ _ hother, setState_of_ne _ _ hother, setState_of_ne _ _ hother]

end

/-- What is left of the handling of an event: its outcome, or a call on a sink, and what is left
after the reply. -/
inductive Script (ι : Type) where
  | done (outcome : Outcome)
  | send (sink : ι) (diagnostic : Diagnostic) (resume : Reply → Script ι)

namespace Script

variable {ι σ : Type}

/-- Sends the texts of one group, until one is not accepted, and resumes with the last reply. -/
def group (index : ι) (resource : String) : List String → (Reply → Script ι) → Script ι
  | [], resume => resume .accepted
  | text :: rest, resume =>
    send index (Emission.about resource text) fun
      | .accepted => group index resource rest resume
      | reply => resume reply

/-- Sends the texts of all groups, and resumes with the refusals, or none where the sink crashed. -/
def groups (index : ι) (resource : String) :
    List (List String) → (Option (List Refusal) → Script ι) → Script ι
  | [], resume => resume (some [])
  | texts :: rest, resume =>
    group index resource texts fun
      | .accepted => groups index resource rest resume
      | .refused refusal =>
        groups index resource rest fun refusals => resume (refusals.map (refusal :: ·))
      | .crashed => resume none

/-- Sends a finding to the sink of a rule. -/
def ofFinding (rule : Rule ι) : Finding → Script ι
  | .malformed resource message =>
    send rule.sink (Emission.about resource message) fun reply => done reply.outcome
  | .violations resource violations =>
    let texts := rule.dialect.sentences violations
    groups rule.sink resource texts fun
      | none => done .crashed
      | some refusals =>
        match Refusals.ofList? refusals with
        | some refusals => done (.refused refusals)
        | none => done (.reported texts.flatten.length)

variable [DecidableEq ι]

/-- Does all that is left. -/
def run (sink : Sink σ) : Script ι → (ι → σ) → Outcome × (ι → σ)
  | done outcome, states => (outcome, states)
  | send index diagnostic resume, states =>
    let (reply, state) := sink (states index) diagnostic
    run sink (resume reply) (setState states index state)

/-- Does the next call, or ends where no call is left. -/
def turn (sink : Sink σ) : Script ι → (ι → σ) → Job (Script ι) × (ι → σ)
  | done outcome, states => (.done outcome, states)
  | send index diagnostic resume, states =>
    let (reply, state) := sink (states index) diagnostic
    (.waiting (resume reply), setState states index state)

variable (sink : Sink σ)

theorem run_group (index : ι) (resource : String) (texts : List String)
    (resume : Reply → Script ι) (states : ι → σ) :
    run sink (group index resource texts resume) states =
      run sink (resume (Emission.sendGroup sink resource texts (states index)).1)
        (setState states index (Emission.sendGroup sink resource texts (states index)).2) := by
  induction texts generalizing states with
  | nil => exact congrArg (run sink (resume .accepted)) (setState_eq_self states index).symm
  | cons text rest ih =>
    rcases hreply : sink (states index) (Emission.about resource text) with ⟨reply, state⟩
    cases reply with
    | accepted =>
      -- The rest is sent from the state that this call left.
      simp only [group, run, Emission.sendGroup, hreply]
      rw [ih, setState_self, setState_setState]
    | refused refusal => simp only [group, run, Emission.sendGroup, hreply]
    | crashed => simp only [group, run, Emission.sendGroup, hreply]

theorem run_groups (index : ι) (resource : String) (texts : List (List String))
    (resume : Option (List Refusal) → Script ι) (states : ι → σ) :
    run sink (groups index resource texts resume) states =
      run sink (resume (Emission.sendGroups sink resource texts (states index)).1)
        (setState states index (Emission.sendGroups sink resource texts (states index)).2) := by
  -- After a refusal the rest is sent with another way to resume: the induction is for all ways.
  induction texts generalizing states resume with
  | nil => exact congrArg (run sink (resume (some []))) (setState_eq_self states index).symm
  | cons texts rest ih =>
    rw [groups, run_group]
    rcases hreply : Emission.sendGroup sink resource texts (states index) with ⟨reply, state⟩
    cases reply with
    | accepted =>
      simp only [Emission.sendGroups, hreply]
      rw [ih, setState_self, setState_setState]
    | refused refusal =>
      simp only [Emission.sendGroups, hreply]
      rw [ih, setState_self, setState_setState]
    | crashed => simp only [Emission.sendGroups, hreply]

/-- Sending a finding call by call is sending it. -/
theorem run_ofFinding (rule : Rule ι) (finding : Finding) (states : ι → σ) :
    run sink (ofFinding rule finding) states =
      ((rule.send sink finding states).1.outcome, (rule.send sink finding states).2) := by
  cases finding with
  | malformed resource message =>
    rcases hreply : sink (states rule.sink) (Emission.about resource message) with ⟨reply, state⟩
    simp only [ofFinding, run, Rule.send, Emission.send, Emission.sendMalformed, hreply]
    cases reply <;> rfl
  | violations resource violations =>
    simp only [ofFinding, Rule.send, Emission.send, Emission.sendViolations]
    rw [run_groups]
    rcases Emission.sendGroups sink resource (rule.dialect.sentences violations)
      (states rule.sink) with ⟨refusals, state⟩
    cases refusals with
    | none => rfl
    | some refusals =>
      cases refusals with
      | nil => rfl
      | cons refusal others => rfl

end Script

variable {ι σ : Type}

/-- The handling of an event, before its first call. -/
def Registry.script (registry : Registry ι) (announcement : Announcement) : Script ι :=
  match EventName.ofName announcement.name with
  | .error error => .done (.unreadable error)
  | .ok event =>
    match registry.get? event.topic with
    | none => .done .unheard
    | some rule =>
      match Finding.ofEvent event announcement.payload with
      | .error error => .done (.unreadable error)
      | .ok finding => .ofFinding rule finding

/-- Doing all calls of an event is routing it. -/
theorem Registry.run_script [DecidableEq ι] (sink : Sink σ) (registry : Registry ι)
    (announcement : Announcement) (states : ι → σ) :
    (registry.script announcement).run sink states = registry.route sink announcement states := by
  rw [script, route]
  cases EventName.ofName announcement.name with
  | error error => rfl
  | ok event =>
    dsimp only
    cases registry.get? event.topic with
    | none => rfl
    | some rule =>
      dsimp only
      cases Finding.ofEvent event announcement.payload with
      | error error => rfl
      | ok finding => exact Script.run_ofFinding sink rule finding states

end ConfigDiagnostics
