import ConfigDiagnostics.Engine
import ConfigDiagnostics.Sink.Hosted

/-!
# Hosts

A host has sinks, a registry whose rules send to them, and an engine over the registry. Sinks are
numbered in the order in which they were made; a rule keeps its sink by number.

## Main definitions

* `Host`: sinks, registry and engine together
* `Host.addSink`, `Host.register`: making a sink, and a rule that sends to one
* `Host.report`, `Host.send`, `Host.route`, `Host.run?`: a diagnostic to a sink, a finding to the
  sink of a rule, an event to its rule, events to the engine
-/

namespace ConfigDiagnostics

/-- Sinks, a registry whose rules send to them, and an engine over the registry. -/
structure Host where
  sinkCount : Nat := 0
  sinks : Nat → Hosted := fun _ => .collecting {}
  registry : Registry Nat := {}
  engine : Engine := { settings := {} }

namespace Host

/-- Makes a sink, and gives its number. -/
def addSink (host : Host) (sink : Hosted) : Nat × Host :=
  (host.sinkCount,
    { host with
      sinkCount := host.sinkCount + 1
      sinks := setState host.sinks host.sinkCount sink })

/-- Changes the state of a sink. -/
def setSink (host : Host) (number : Nat) (sink : Hosted) : Host :=
  { host with sinks := setState host.sinks number sink }

/-- Registers a rule for a dialect that sends to a sink. -/
def register (host : Host) (dialect : Dialect) (sink : Nat) : Except RegistryError Host :=
  (host.registry.register ⟨dialect, sink⟩).map fun registry => { host with registry }

/-- Makes a new engine. -/
def setEngine (host : Host) (settings : Settings) : Host :=
  { host with engine := { settings } }

/-- Sends a diagnostic to a sink. -/
def report (host : Host) (sink : Nat) (diagnostic : Diagnostic) : Reply × Host :=
  let (reply, state) := Hosted.report (host.sinks sink) diagnostic
  (reply, host.setSink sink state)

/-- Sends a finding to the sink of a rule. -/
def send (host : Host) (rule : Rule Nat) (finding : Finding) : Delivery × Host :=
  let (delivery, sinks) := rule.send Hosted.report finding host.sinks
  (delivery, { host with sinks })

/-- Routes an event to the rule of its topic. -/
def route (host : Host) (announcement : Announcement) : Outcome × Host :=
  let (outcome, sinks) := Registry.route Hosted.report host.registry announcement host.sinks
  (outcome, { host with sinks })

/-- Has the engine run over events; none, if it cannot make its channel. -/
def run? (host : Host) (events : List Announcement) : Option (Run × Host) :=
  match host.engine.run? Hosted.report host.registry events host.sinks with
  | some (run, engine, sinks) => some (run, { host with engine, sinks })
  | none => none

end Host

end ConfigDiagnostics
