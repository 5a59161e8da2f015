import ConfigDiagnostics.Refusal

/-!
# Sinks for diagnostics

A host decides where diagnostics go. All that is known of a sink is how it answers: in each of its
states it accepts a diagnostic, refuses it, or crashes, and goes to a state.

## Main definitions

* `Diagnostic`: a text about a resource
* `Reply`: the answer of a sink
* `Sink`: how a sink answers in each of its states
* `Sink.traced`: the same sink, which keeps what it was sent and how it answered
-/

namespace ConfigDiagnostics

/-- A place in a source text. -/
structure Location where
  line : Nat
  column : Nat
  deriving DecidableEq, Repr

/-- A text about a resource, with a place in it if one is known. -/
structure Diagnostic where
  resource : String
  location : Option Location
  text : String
  deriving DecidableEq, Repr

/-- The answer of a sink to a diagnostic. -/
inductive Reply where
  | accepted
  | refused (refusal : Refusal)
  /-- The sink broke down, and what was sending diagnostics with it. -/
  | crashed
  deriving DecidableEq, Repr

/-- A sink with states of type `σ`: how it answers a diagnostic, and the state it goes to. -/
abbrev Sink (σ : Type) := σ → Diagnostic → Reply × σ

namespace Sink

variable {σ : Type}

/-- The same sink, which also keeps what it was sent and how it answered, in order. -/
def traced (sink : Sink σ) : Sink (σ × List (Diagnostic × Reply))
  | (state, trace), diagnostic =>
    let (reply, state) := sink state diagnostic
    (reply, state, trace ++ [(diagnostic, reply)])

end Sink

end ConfigDiagnostics
