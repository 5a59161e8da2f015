import ConfigDiagnostics.Sink.Basic

/-!
# Sinks that answer by the diagnostic alone

Such a sink never changes its mind: what it answers does not depend on what it was sent before.

## Main definitions

* `Answering`: the answers of a sink, and the diagnostics it accepted
* `Answering.report`: the sink
* `Answering.AcceptsAll`: a sink that accepts everything
-/

namespace ConfigDiagnostics

/-- The answers of a sink, and the diagnostics that it accepted, in order. -/
structure Answering where
  answer : Diagnostic → Reply
  held : List Diagnostic := []

namespace Answering

/-- Answers a diagnostic, and keeps it if it is accepted. -/
def report : Sink Answering := fun sink diagnostic =>
  match sink.answer diagnostic with
  | .accepted => (.accepted, { sink with held := sink.held ++ [diagnostic] })
  | reply => (reply, sink)

/-- The sink accepts every diagnostic. -/
def AcceptsAll (sink : Answering) : Prop :=
  ∀ diagnostic, sink.answer diagnostic = .accepted

end Answering

end ConfigDiagnostics
