import ConfigDiagnostics.Sink.Basic

/-!
# Calls on a sink

What passes between a program and a sink is a list of calls: diagnostics and the replies to them.
The replies of a sink follow from its states, so a list of calls can be checked against a sink
without the program that made them.

## Main definitions

* `Call`, `Call.refusals`, `Call.accepted`: calls, and the refusals and accepted diagnostics in them
* `Sink.NeverCrashes`: a sink that accepts or refuses every diagnostic
* `Sink.AcceptsAll`: a sink that accepts every diagnostic
* `Sink.Answers`: a sink answers calls as they say and goes from one state to another

## Main results

* `Call.length_eq_add`: every call of a sink that never crashes is accepted or refused
* `Sink.Answers.view_eq`: what a sink accepts stays in it, whatever it refuses before or after
-/

namespace ConfigDiagnostics

/-- The refusal that a reply is, if it is one. -/
def Reply.refusal? : Reply → Option Refusal
  | refused refusal => some refusal
  | _ => none

/-- A diagnostic that was sent to a sink, and the reply to it. -/
abbrev Call := Diagnostic × Reply

namespace Call

/-- The diagnostic of a call that was accepted. -/
def accepted? : Call → Option Diagnostic
  | (diagnostic, .accepted) => some diagnostic
  | _ => none

/-- The diagnostics that were accepted, in order. -/
def accepted (calls : List Call) : List Diagnostic :=
  calls.filterMap accepted?

/-- The refusals that were met, in order. -/
def refusals (calls : List Call) : List Refusal :=
  calls.filterMap fun call => call.2.refusal?

@[simp] theorem accepted_nil : accepted [] = [] := rfl

@[simp] theorem accepted_append (earlier later : List Call) :
    accepted (earlier ++ later) = accepted earlier ++ accepted later :=
  List.filterMap_append

@[simp] theorem refusals_append (earlier later : List Call) :
    refusals (earlier ++ later) = refusals earlier ++ refusals later :=
  List.filterMap_append

@[simp] theorem accepted_cons_accepted (diagnostic : Diagnostic) (calls : List Call) :
    accepted ((diagnostic, .accepted) :: calls) = diagnostic :: accepted calls := rfl

@[simp] theorem accepted_cons_refused (diagnostic : Diagnostic) (refusal : Refusal)
    (calls : List Call) : accepted ((diagnostic, .refused refusal) :: calls) = accepted calls := rfl

@[simp] theorem refusals_cons_accepted (diagnostic : Diagnostic) (calls : List Call) :
    refusals ((diagnostic, .accepted) :: calls) = refusals calls := rfl

@[simp] theorem refusals_cons_refused (diagnostic : Diagnostic) (refusal : Refusal)
    (calls : List Call) :
    refusals ((diagnostic, .refused refusal) :: calls) = refusal :: refusals calls := rfl

/-- Calls none of which crashed are accepted or refused, each of them once. -/
theorem length_eq_add {calls : List Call} (hcalls : ∀ call ∈ calls, call.2 ≠ .crashed) :
    calls.length = (accepted calls).length + (refusals calls).length := by
  induction calls with
  | nil => rfl
  | cons call rest ih =>
    -- A crash is the one reply that is counted on neither side.
    have hrest := ih fun other hother => hcalls other (List.mem_cons_of_mem call hother)
    obtain ⟨diagnostic, reply⟩ := call
    cases reply with
    | accepted =>
      rw [accepted_cons_accepted, refusals_cons_accepted, List.length_cons, List.length_cons]
      omega
    | refused refusal =>
      rw [accepted_cons_refused, refusals_cons_refused, List.length_cons, List.length_cons]
      omega
    | crashed => exact absurd rfl (hcalls _ List.mem_cons_self)

end Call

namespace Sink

variable {σ : Type}

/-- The sink accepts or refuses every diagnostic, in whatever state it is. -/
def NeverCrashes (sink : Sink σ) : Prop :=
  ∀ state diagnostic, (sink state diagnostic).1 ≠ .crashed

/-- The sink accepts every diagnostic, in whatever state it is. -/
def AcceptsAll (sink : Sink σ) : Prop :=
  ∀ state diagnostic, (sink state diagnostic).1 = .accepted

theorem AcceptsAll.neverCrashes {sink : Sink σ} (h : sink.AcceptsAll) : sink.NeverCrashes := by
  intro state diagnostic
  rw [h state diagnostic]
  exact Reply.noConfusion

/-- Sent the diagnostics of the calls one after another, the sink gives the replies of the calls and
goes from the first state to the last. -/
inductive Answers (sink : Sink σ) : σ → List Call → σ → Prop
  | nil {state} : Answers sink state [] state
  | cons {state next last diagnostic reply calls} : sink state diagnostic = (reply, next) →
      Answers sink next calls last → Answers sink state ((diagnostic, reply) :: calls) last

variable {sink : Sink σ} {state next last : σ} {calls later : List Call}

theorem Answers.append (hcalls : sink.Answers state calls next)
    (hlater : sink.Answers next later last) : sink.Answers state (calls ++ later) last := by
  induction hcalls with
  | nil => exact hlater
  | cons hreply _ ih => exact .cons hreply (ih hlater)

/-- Calls on a sink that never crashes did not crash. -/
theorem Answers.ne_crashed (hsink : sink.NeverCrashes) (hcalls : sink.Answers state calls last) :
    ∀ call ∈ calls, call.2 ≠ .crashed := by
  induction hcalls with
  | nil => exact fun _ hcall => absurd hcall List.not_mem_nil
  | @cons state next last diagnostic reply calls hreply _ ih =>
    intro call hcall
    rcases List.mem_cons.mp hcall with rfl | hcall
    · have hne := hsink state diagnostic
      rwa [hreply] at hne
    · exact ih call hcall

/-- Calls on a sink that accepts everything were not refused. -/
theorem Answers.refusals_eq_nil (hsink : sink.AcceptsAll) (hcalls : sink.Answers state calls last) :
    Call.refusals calls = [] := by
  induction hcalls with
  | nil => rfl
  | @cons state next last diagnostic reply calls hreply _ ih =>
    have haccepted := hsink state diagnostic
    rw [hreply] at haccepted
    subst haccepted
    rwa [Call.refusals_cons_accepted]

/-- The view shows what a sink holds: an accepted diagnostic comes last, any other leaves it. -/
def Keeps (sink : Sink σ) (view : σ → List Diagnostic) : Prop :=
  ∀ state diagnostic,
    view (sink state diagnostic).2 =
      view state ++ Call.accepted [(diagnostic, (sink state diagnostic).1)]

/-- After any calls a sink holds what it held before and what it accepted: a refusal takes nothing
out again. -/
theorem Answers.view_eq {view : σ → List Diagnostic} (hview : sink.Keeps view)
    (hcalls : sink.Answers state calls last) : view last = view state ++ Call.accepted calls := by
  induction hcalls with
  | nil => exact (List.append_nil _).symm
  | @cons state next last diagnostic reply calls hreply _ ih =>
    have hstep := hview state diagnostic
    rw [hreply] at hstep
    calc view last = view next ++ Call.accepted calls := ih
      _ = view state ++ Call.accepted [(diagnostic, reply)] ++ Call.accepted calls := by rw [hstep]
      _ = view state ++ Call.accepted ((diagnostic, reply) :: calls) := by
        rw [List.append_assoc, ← Call.accepted_append, List.singleton_append]

end Sink

end ConfigDiagnostics
