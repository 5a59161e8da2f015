import ConfigDiagnostics.Dialect
import ConfigDiagnostics.Finding
import ConfigDiagnostics.Sink.Basic

/-!
# Sending findings to a sink

A finding becomes diagnostics about its resource, without a place in it. A parser's message is one
diagnostic. The sentences about violations are sent group by group: a group ends at its first
refusal, the groups after it are still sent, and all refusals are kept in order. Where the sink
crashes nothing more is sent.

## Main definitions

* `Delivery`: how the sending of a finding ended
* `Emission.sendGroup`, `Emission.sendGroups`: sending the texts of one group, and of all
* `Emission.send`: sending a finding in a dialect
-/

namespace ConfigDiagnostics

/-- How the sending of a finding ended. -/
inductive Delivery where
  /-- All diagnostics were accepted: so many. -/
  | reported (count : Nat)
  | refused (refusals : Refusals)
  | crashed
  deriving DecidableEq, Repr

namespace Emission

variable {σ : Type}

/-- A diagnostic about a whole resource. -/
def about (resource text : String) : Diagnostic where
  resource
  location := none
  text

/-- Sends the texts of one group in order, until one is not accepted. Gives the reply to the last
text that was sent, and acceptance where there is none. -/
def sendGroup (sink : Sink σ) (resource : String) : List String → σ → Reply × σ
  | [], state => (.accepted, state)
  | text :: rest, state =>
    match sink state (about resource text) with
    | (.accepted, state) => sendGroup sink resource rest state
    | (reply, state) => (reply, state)

/-- Sends the texts of all groups in order. Gives the refusals, at most one for each group; none
where the sink crashed, at which the sending ended. -/
def sendGroups (sink : Sink σ) (resource : String) :
    List (List String) → σ → Option (List Refusal) × σ
  | [], state => (some [], state)
  | texts :: rest, state =>
    match sendGroup sink resource texts state with
    | (.accepted, state) => sendGroups sink resource rest state
    | (.refused refusal, state) =>
      -- The rest of this group is not sent, but the later groups are.
      let (refusals, state) := sendGroups sink resource rest state
      (refusals.map (refusal :: ·), state)
    | (.crashed, state) => (none, state)

/-- Sends a parser's message as one diagnostic. -/
def sendMalformed (sink : Sink σ) (resource message : String) (state : σ) : Delivery × σ :=
  match sink state (about resource message) with
  | (.accepted, state) => (.reported 1, state)
  | (.refused refusal, state) => (.refused (.single refusal), state)
  | (.crashed, state) => (.crashed, state)

/-- Sends what a dialect says about violations. -/
def sendViolations (dialect : Dialect) (sink : Sink σ) (resource : String)
    (violations : List Violation) (state : σ) : Delivery × σ :=
  let groups := dialect.sentences violations
  match sendGroups sink resource groups state with
  | (none, state) => (.crashed, state)
  | (some refusals, state) =>
    match Refusals.ofList? refusals with
    | some refusals => (.refused refusals, state)
    | none => (.reported groups.flatten.length, state)

/-- Sends a finding in a dialect. -/
def send (dialect : Dialect) (sink : Sink σ) (state : σ) : Finding → Delivery × σ
  | .malformed resource message => sendMalformed sink resource message state
  | .violations resource violations => sendViolations dialect sink resource violations state

end Emission

end ConfigDiagnostics
