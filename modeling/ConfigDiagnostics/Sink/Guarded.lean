import ConfigDiagnostics.Sink.Collecting

/-!
# The guarded sink

A host may put rules of its own before a collecting sink. The rules are looked at in an order, and
the first that concerns a diagnostic answers it.

## Main definitions

* `Guard`: the rules
* `Guard.answer`: the answer of the rules to a diagnostic
* `Guarded`, `Guarded.report`: a collecting sink behind a guard
-/

namespace ConfigDiagnostics

/-- One text occurs within the other. -/
def occursIn (part : List Char) : List Char → Bool
  | [] => part.isEmpty
  | c :: rest => part.isPrefixOf (c :: rest) || occursIn part rest

/-- The rules of a host for the diagnostics of a sink. -/
structure Guard where
  /-- For these resources the sink crashes. -/
  crashing : List String := []
  /-- For these resources the sink is closed. -/
  closed : List String := []
  /-- For these resources the sink may not be written. -/
  readOnly : List String := []
  /-- Texts in which one of these occurs are rejected. -/
  rejectedTexts : List String := []
  /-- The sink holds no more than this. -/
  limit : Option Nat := none
  deriving DecidableEq, Repr

/-- The answer of a guard to a diagnostic, when `held` diagnostics are held already. -/
def Guard.answer (guard : Guard) (held : Nat) (diagnostic : Diagnostic) : Reply :=
  let rejected (reason : String) : Reply := .refused (.rejected diagnostic.resource reason)
  if diagnostic.resource ∈ guard.crashing then .crashed
  else if diagnostic.resource ∈ guard.closed then .refused .closed
  else if diagnostic.resource ∈ guard.readOnly then rejected "read-only"
  else
    match guard.rejectedTexts.find? fun part => occursIn part.toList diagnostic.text.toList with
    | some part => rejected part
    | none =>
      match guard.limit with
      | some limit => if limit ≤ held then rejected "quota" else .accepted
      | none => .accepted

/-- A collecting sink behind a guard. -/
structure Guarded where
  guard : Guard
  inner : Collecting := {}
  deriving DecidableEq, Repr

/-- Sends on what the guard accepts. -/
def Guarded.report : Sink Guarded := fun sink diagnostic =>
  match sink.guard.answer sink.inner.size diagnostic with
  | .accepted =>
    let (reply, inner) := Collecting.report sink.inner diagnostic
    (reply, { sink with inner })
  | reply => (reply, sink)

end ConfigDiagnostics
