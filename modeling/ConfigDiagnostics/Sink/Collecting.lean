import ConfigDiagnostics.Sink.Basic

/-!
# The collecting sink

## Main definitions

* `Collecting`: the diagnostics that a sink holds, in the order in which it accepted them
* `Collecting.report`: the sink, which accepts everything
* `Collecting.forResource`, `Collecting.take`: those of one resource, and taking all out
-/

namespace ConfigDiagnostics

/-- The diagnostics that a collecting sink holds, in the order in which it accepted them. -/
structure Collecting where
  held : List Diagnostic := []
  deriving DecidableEq, Repr

namespace Collecting

/-- Accepts a diagnostic and keeps it last. -/
def report : Sink Collecting := fun sink diagnostic =>
  (.accepted, ⟨sink.held ++ [diagnostic]⟩)

/-- The diagnostics held for one resource. -/
def forResource (sink : Collecting) (resource : String) : List Diagnostic :=
  sink.held.filter fun diagnostic => diagnostic.resource = resource

/-- Takes all diagnostics out. -/
def take (sink : Collecting) : List Diagnostic × Collecting :=
  (sink.held, ⟨[]⟩)

/-- The number of diagnostics held. -/
def size (sink : Collecting) : Nat :=
  sink.held.length

/-- No diagnostic is held. -/
def isEmpty (sink : Collecting) : Bool :=
  sink.held.isEmpty

@[simp] theorem held_report (sink : Collecting) (diagnostic : Diagnostic) :
    (report sink diagnostic).2.held = sink.held ++ [diagnostic] := rfl

end Collecting

end ConfigDiagnostics
