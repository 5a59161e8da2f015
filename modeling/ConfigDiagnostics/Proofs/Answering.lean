import ConfigDiagnostics.Proofs.Script
import ConfigDiagnostics.Proofs.Tally
import ConfigDiagnostics.Sink.Answering
import Mathlib.Algebra.BigOperators.Group.List.Basic
import Mathlib.Data.List.Nodup

/-!
# What sinks that answer by the diagnostic accept

Such sinks have no memory but what they hold. So what an event comes to, and what the sinks accept
of it, is the same whatever they hold already.

## Main definitions

* `Answering.holding`: sinks with given answers, and what they hold
* `Registry.alone`, `Registry.accepts`: an event by itself, on sinks that hold nothing
* `Announcement.Announces`: an event is about a resource

## Main results

* `Script.run_holding`: the handling of an event adds to what the sinks hold
* `Registry.announces_of_mem_accepts`: what sinks accept of an event is about its resource
* `Registry.sum_length_accepts`: sinks that accept everything accept what is reported
-/

namespace ConfigDiagnostics

namespace Answering

variable {ι : Type}

/-- Sinks with the answers that hold the diagnostics. -/
def holding (answers : ι → Diagnostic → Reply) (held : ι → List Diagnostic) (index : ι) :
    Answering where
  answer := answers index
  held := held index

theorem report_eq (sink : Answering) (diagnostic : Diagnostic) :
    report sink diagnostic = (sink.answer diagnostic,
      { sink with held := sink.held ++ Call.accepted [(diagnostic, sink.answer diagnostic)] }) := by
  rw [report]
  cases sink.answer diagnostic with
  | accepted => rfl
  | refused refusal => exact Prod.ext rfl (congrArg (mk sink.answer) (List.append_nil _).symm)
  | crashed => exact Prod.ext rfl (congrArg (mk sink.answer) (List.append_nil _).symm)

variable [DecidableEq ι] {answers : ι → Diagnostic → Reply} {held : ι → List Diagnostic}

/-- What one sink is given in addition. -/
theorem setState_holding (index : ι) (given : List Diagnostic) :
    setState (holding answers held) index ⟨answers index, held index ++ given⟩ =
      holding answers fun other => held other ++ setState (fun _ => []) index given other := by
  funext other
  by_cases hother : other = index
  · subst hother
    rw [setState_self, holding, setState_self]
  · rw [setState_of_ne _ _ hother, holding, holding, setState_of_ne _ _ hother, List.append_nil]

end Answering

open Answering (AcceptsAll holding)

namespace Script

variable {ι : Type} (answers : ι → Diagnostic → Reply)

/-- The outcome where sinks give the answers. -/
def ending : Script ι → Outcome
  | done outcome => outcome
  | send index diagnostic resume => ending (resume (answers index diagnostic))

/-- The number of turns where sinks give the answers: one for each call, and one for the end. -/
def turns : Script ι → Nat
  | done _ => 1
  | send index diagnostic resume => turns (resume (answers index diagnostic)) + 1

variable [DecidableEq ι]

/-- What each sink accepts of one call. -/
def given (index : ι) (diagnostic : Diagnostic) : ι → List Diagnostic :=
  setState (fun _ => []) index (Call.accepted [(diagnostic, answers index diagnostic)])

/-- What each sink accepts where sinks give the answers. -/
def share : Script ι → ι → List Diagnostic
  | done _, _ => []
  | send index diagnostic resume, other =>
    given answers index diagnostic other ++ share (resume (answers index diagnostic)) other

variable {answers}

theorem run_send (index : ι) (diagnostic : Diagnostic) (resume : Reply → Script ι)
    (held : ι → List Diagnostic) :
    (send index diagnostic resume).run Answering.report (holding answers held) =
      (resume (answers index diagnostic)).run Answering.report
        (holding answers fun other => held other ++ given answers index diagnostic other) := by
  rw [run, Answering.report_eq]
  exact congrArg _ (Answering.setState_holding index _)

theorem turn_send (index : ι) (diagnostic : Diagnostic) (resume : Reply → Script ι)
    (held : ι → List Diagnostic) :
    (send index diagnostic resume).turn Answering.report (holding answers held) =
      (.waiting (resume (answers index diagnostic)),
        holding answers fun other => held other ++ given answers index diagnostic other) := by
  rw [turn, Answering.report_eq]
  exact Prod.ext rfl (Answering.setState_holding index _)

/-- The handling of an event adds to what the sinks hold, and does not depend on it. -/
theorem run_holding (script : Script ι) (held : ι → List Diagnostic) :
    script.run Answering.report (holding answers held) =
      (script.ending answers,
        holding answers fun index => held index ++ script.share answers index) := by
  induction script generalizing held with
  | done outcome =>
    refine Prod.ext rfl (funext fun index => ?_)
    exact congrArg (Answering.mk _) (List.append_nil _).symm
  | send index diagnostic resume ih =>
    rw [run_send, ih]
    refine Prod.ext rfl (funext fun other => ?_)
    exact congrArg (Answering.mk _) (List.append_assoc ..)

end Script

namespace Registry

variable {ι : Type} [DecidableEq ι] (registry : Registry ι) (answers : ι → Diagnostic → Reply)

/-- What becomes of an event by itself, on sinks that hold nothing, and what they hold then. -/
def alone (announcement : Announcement) : Outcome × (ι → Answering) :=
  registry.route Answering.report announcement (holding answers fun _ => [])

/-- What a sink accepts of an event by itself. -/
def accepts (announcement : Announcement) (index : ι) : List Diagnostic :=
  ((registry.alone answers announcement).2 index).held

variable {registry answers} {announcement : Announcement}

theorem alone_eq : registry.alone answers announcement =
    ((registry.script announcement).ending answers,
      holding answers fun index => (registry.script announcement).share answers index) := by
  rw [alone, ← run_script, Script.run_holding]
  rfl

theorem ending_script :
    (registry.script announcement).ending answers = (registry.alone answers announcement).1 := by
  rw [alone_eq]

theorem share_script :
    (registry.script announcement).share answers = registry.accepts answers announcement := by
  funext index
  rw [accepts, alone_eq]
  rfl

/-- Routing an event adds to what the sinks hold, and does not depend on it. -/
theorem route_holding (held : ι → List Diagnostic) :
    registry.route Answering.report announcement (holding answers held) =
      ((registry.alone answers announcement).1, holding answers fun index =>
        held index ++ registry.accepts answers announcement index) := by
  rw [← run_script, Script.run_holding, ending_script, share_script]

end Registry

/-! ### Resources -/

namespace Script

variable {ι : Type} [DecidableEq ι] {answers : ι → Diagnostic → Reply} {index other : ι}
  {resource : String} {diagnostic : Diagnostic}

theorem resource_of_mem_given {text : String}
    (h : diagnostic ∈ given answers index (Emission.about resource text) other) :
    diagnostic.resource = resource := by
  by_cases hother : other = index
  · subst hother
    rw [given, setState_self] at h
    cases hreply : answers other (Emission.about resource text) with
    | accepted =>
      rw [hreply, Call.accepted_cons_accepted, Call.accepted_nil] at h
      rw [List.mem_singleton.mp h]
      rfl
    | refused refusal => rw [hreply] at h; cases h
    | crashed => rw [hreply] at h; cases h
  · rw [given, setState_of_ne _ _ hother] at h
    cases h

theorem resource_of_mem_share_group {texts : List String} {resume : Reply → Script ι}
    (h : diagnostic ∈ (group index resource texts resume).share answers other) :
    diagnostic.resource = resource ∨ ∃ reply, diagnostic ∈ (resume reply).share answers other := by
  induction texts with
  | nil => exact .inr ⟨.accepted, h⟩
  | cons text rest ih =>
    rw [group, share] at h
    rcases List.mem_append.mp h with hgiven | hrest
    · exact .inl (resource_of_mem_given hgiven)
    · -- After an acceptance the group goes on; after any other reply it is left.
      cases hreply : answers index (Emission.about resource text) with
      | accepted =>
        rw [hreply] at hrest
        exact ih hrest
      | refused refusal =>
        rw [hreply] at hrest
        exact .inr ⟨_, hrest⟩
      | crashed =>
        rw [hreply] at hrest
        exact .inr ⟨_, hrest⟩

theorem resource_of_mem_share_groups {texts : List (List String)}
    {resume : Option (List Refusal) → Script ι}
    (h : diagnostic ∈ (groups index resource texts resume).share answers other) :
    diagnostic.resource = resource ∨
      ∃ refusals, diagnostic ∈ (resume refusals).share answers other := by
  induction texts generalizing resume with
  | nil => exact .inr ⟨_, h⟩
  | cons texts rest ih =>
    rw [groups] at h
    rcases resource_of_mem_share_group h with hresource | ⟨reply, hrest⟩
    · exact .inl hresource
    · cases reply with
      | accepted => exact ih hrest
      | refused refusal =>
        rcases ih hrest with hresource | ⟨refusals, hrest⟩
        · exact .inl hresource
        · exact .inr ⟨_, hrest⟩
      | crashed => exact .inr ⟨_, hrest⟩

/-- What sinks accept of a finding is about its resource. -/
theorem resource_of_mem_share_ofFinding {rule : Rule ι} {finding : Finding}
    (h : diagnostic ∈ (ofFinding rule finding).share answers other) :
    diagnostic.resource = finding.resource := by
  cases finding with
  | malformed resource message =>
    rw [ofFinding, share, share, List.append_nil] at h
    exact resource_of_mem_given h
  | violations resource violations =>
    rcases resource_of_mem_share_groups h with hresource | ⟨refusals, hrest⟩
    · exact hresource
    · -- No call is left after all groups.
      cases refusals with
      | none => cases hrest
      | some refusals => cases refusals <;> cases hrest

end Script

/-- The event is about the resource: it has a name and a payload that give a finding about it. -/
def Announcement.Announces (announcement : Announcement) (resource : String) : Prop :=
  ∃ event finding, EventName.Names event announcement.name ∧
    Finding.ofPayload event.kind announcement.payload = .ok finding ∧ finding.resource = resource

/-- An event is about one resource at most. -/
theorem Announcement.Announces.unique {event : Announcement} {resource other : String}
    (h : event.Announces resource) (hother : event.Announces other) : resource = other := by
  obtain ⟨name, finding, hname, hpayload, rfl⟩ := h
  obtain ⟨name', finding', hname', hpayload', rfl⟩ := hother
  obtain rfl := hname.unique hname'
  rw [hpayload] at hpayload'
  rw [Except.ok.inj hpayload']

namespace Registry

variable {ι : Type} [DecidableEq ι] {registry : Registry ι} {answers : ι → Diagnostic → Reply}
  {announcement : Announcement}

/-- What sinks accept of an event is about its resource. -/
theorem announces_of_mem_accepts {index : ι} {diagnostic : Diagnostic}
    (h : diagnostic ∈ registry.accepts answers announcement index) :
    announcement.Announces diagnostic.resource := by
  rw [accepts, alone] at h
  rcases route_cases Answering.report registry announcement (holding answers fun _ => []) with
    ⟨event, rule, finding, hname, -, hpayload, hroute⟩ | ⟨outcome, -, hroute⟩
  · rw [hroute, ← Script.run_ofFinding, Script.run_holding] at h
    exact ⟨event, finding, hname, hpayload, (Script.resource_of_mem_share_ofFinding h).symm⟩
  · rw [hroute] at h
    cases h

end Registry

/-! ### Sinks that accept everything -/

namespace Emission

variable {sink : Answering} (hsink : sink.AcceptsAll)
include hsink

theorem sendGroup_of_acceptsAll (resource : String) (texts : List String) :
    sendGroup Answering.report resource texts sink =
      (.accepted, { sink with held := sink.held ++ texts.map (about resource) }) := by
  induction texts generalizing sink with
  | nil => exact Prod.ext rfl (congrArg (Answering.mk _) (List.append_nil _).symm)
  | cons text rest ih =>
    have hnext : AcceptsAll { sink with held := sink.held ++ [about resource text] } := hsink
    rw [sendGroup, Answering.report_eq, hsink]
    refine (ih hnext).trans (Prod.ext rfl (congrArg (Answering.mk _) ?_))
    exact List.append_assoc ..

theorem sendGroups_of_acceptsAll (resource : String) (texts : List (List String)) :
    sendGroups Answering.report resource texts sink =
      (some [], { sink with held := sink.held ++ texts.flatten.map (about resource) }) := by
  induction texts generalizing sink with
  | nil => exact Prod.ext rfl (congrArg (Answering.mk _) (List.append_nil _).symm)
  | cons texts rest ih =>
    have hnext : AcceptsAll { sink with held := sink.held ++ texts.map (about resource) } := hsink
    rw [sendGroups, sendGroup_of_acceptsAll hsink]
    refine (ih hnext).trans (Prod.ext rfl (congrArg (Answering.mk _) ?_))
    rw [List.flatten_cons, List.map_append]
    exact List.append_assoc ..

/-- All diagnostics of a finding are accepted and reported. -/
theorem exists_send_of_acceptsAll (dialect : Dialect) (finding : Finding) :
    ∃ diagnostics, send dialect Answering.report sink finding =
      (.reported diagnostics.length, { sink with held := sink.held ++ diagnostics }) := by
  cases finding with
  | malformed resource message =>
    refine ⟨[about resource message], ?_⟩
    rw [send, sendMalformed, Answering.report_eq, hsink]
    rfl
  | violations resource violations =>
    refine ⟨(dialect.sentences violations).flatten.map (about resource), ?_⟩
    rw [send, sendViolations, sendGroups_of_acceptsAll hsink, List.length_map]
    rfl

end Emission

theorem sum_length_setState {ι α : Type} [DecidableEq ι] {indices : List ι}
    (hnodup : indices.Nodup) {index : ι} (hindex : index ∈ indices) (given : List α) :
    (indices.map fun other => (setState (fun _ => []) index given other).length).sum =
      given.length := by
  rw [List.sum_map_eq_nsmul_single index, List.count_eq_one_of_mem hnodup hindex, setState_self,
    one_nsmul]
  intro other hother _
  rw [setState_of_ne _ _ hother]
  rfl

/-- What sinks that accept everything accept of an event by itself is what is reported. -/
theorem Registry.sum_length_accepts {ι : Type} [DecidableEq ι] {registry : Registry ι}
    {answers : ι → Diagnostic → Reply}
    (haccept : ∀ rule ∈ registry.rules, ∀ diagnostic, answers rule.sink diagnostic = .accepted)
    {sinks : List ι} (hnodup : sinks.Nodup) (hsinks : ∀ rule ∈ registry.rules, rule.sink ∈ sinks)
    (announcement : Announcement) :
    (sinks.map fun index => (registry.accepts answers announcement index).length).sum =
      (registry.alone answers announcement).1.count := by
  simp only [accepts, alone]
  rcases route_cases Answering.report registry announcement (holding answers fun _ => []) with
    ⟨event, rule, finding, -, hrule, -, hroute⟩ | ⟨outcome, houtcome, hroute⟩
  · have hmem : rule ∈ registry.rules := List.mem_of_find?_eq_some hrule
    have hsink : AcceptsAll (holding answers (fun _ => []) rule.sink) := haccept rule hmem
    obtain ⟨diagnostics, hsend⟩ := Emission.exists_send_of_acceptsAll hsink rule.dialect finding
    -- One sink gets all diagnostics of the finding, and is among the sinks just once.
    have hsent : rule.send Answering.report finding (holding answers fun _ => []) =
        (.reported diagnostics.length,
          holding answers (setState (fun _ => []) rule.sink diagnostics)) := by
      rw [Rule.send, hsend]
      exact Prod.ext rfl (Answering.setState_holding rule.sink diagnostics)
    rw [hroute, hsent]
    exact sum_length_setState hnodup (hsinks rule hmem) diagnostics
  · rw [hroute]
    cases outcome with
    | reported count => exact absurd rfl (houtcome count)
    | unheard | unreadable _ | refused _ | crashed =>
      exact List.sum_eq_zero (List.forall_mem_map.mpr fun _ _ => rfl)

end ConfigDiagnostics
