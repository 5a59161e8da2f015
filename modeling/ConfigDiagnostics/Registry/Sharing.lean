import ConfigDiagnostics.Registry

/-!
# Rules that share sinks

A rule holds a reference to its sink. References that were copied from each other lead to the same
sink, so rules that hold them share its state.

## Main definitions

* `Rule.through`, `Registry.through`: with the sinks in the place of references to them
-/

namespace ConfigDiagnostics

variable {κ α : Type} (refersTo : κ → α)

/-- The rule with its sink in the place of the reference to it. -/
def Rule.through (rule : Rule κ) : Rule α where
  dialect := rule.dialect
  sink := refersTo rule.sink

/-- The registry of rules with their sinks in the place of the references to them. -/
def Registry.through (registry : Registry κ) : Registry α where
  rules := registry.rules.map (Rule.through refersTo)

theorem Registry.get?_through (registry : Registry κ) (topic : String) :
    (registry.through refersTo).get? topic =
      (registry.get? topic).map (Rule.through refersTo) := by
  rw [get?, get?, through, List.find?_map]
  rfl

end ConfigDiagnostics
