import ConfigDiagnostics.Proofs.EventGrammar
import ConfigDiagnostics.Proofs.Routing

/-!
# Which rules get their events

A registry takes a rule for any topic that it has no rule for, and keeps it for good. The events of
the rule are known by their names, and a name is only read back if its topic is some text on one
line. So a rule gets its events just where its topic is of this kind. A rule for any other topic can
be registered as well, but all its events are taken for unknown.

## Main definitions

* `Registry.offer`, `Registry.offerAll`: a registry after rules were offered to it
* `Registry.Serves`: the events of a rule are sent by the rule
* `Registry.Overlooks`: the events of a rule are unknown

## Main results

* `Registry.get?_offerAll`: a rule stays registered
* `Registry.serves_iff_isTopic`: a registered rule is served just where its topic can be read back
-/

namespace ConfigDiagnostics

theorem Rule.mem_eventNames_iff {ι : Type} {rule : Rule ι} {event : EventName} :
    event ∈ rule.eventNames ↔ event.topic = rule.dialect.topic := by
  obtain ⟨topic, kind⟩ := event
  cases kind with
  | json => simp [eventNames, Dialect.eventName]
  | schema => simp [eventNames, Dialect.eventName]

theorem Delivery.outcome_ne_unreadable (delivery : Delivery) (error : EventError) :
    delivery.outcome ≠ .unreadable error := by
  cases delivery <;> exact nofun

theorem Delivery.outcome_ne_unheard (delivery : Delivery) : delivery.outcome ≠ .unheard := by
  cases delivery <;> exact nofun

/-- Some payload has a finding of the first kind. -/
theorem Finding.exists_ofPayload_json :
    ∃ payload finding, ofPayload .json payload = .ok finding :=
  ⟨.object [("error", .object [("message", .string "")]), ("resource", .string "")],
    .malformed "" "", rfl⟩

namespace Registry

variable {ι : Type}

/-- The registry after a rule was offered to it: a rule that is refused leaves it as it is. -/
def offer (registry : Registry ι) (rule : Rule ι) : Registry ι :=
  match registry.register rule with
  | .ok next => next
  | .error _ => registry

/-- The registry after rules were offered to it, one after another. -/
def offerAll (registry : Registry ι) (rules : List (Rule ι)) : Registry ι :=
  rules.foldl offer registry

variable {registry next : Registry ι} {rule : Rule ι} {topic : String}

theorem get?_of_register (h : registry.register rule = .ok next) :
    next.get? rule.dialect.topic = some rule := by
  obtain ⟨hnew, rfl⟩ := register_eq_ok_iff.mp h
  have hnone : registry.rules.find? (fun other => other.dialect.topic = rule.dialect.topic) =
      none := by
    refine List.find?_eq_none.mpr ?_
    intro other hother heq
    exact hnew (of_decide_eq_true heq ▸ List.mem_map_of_mem hother)
  rw [get?, List.find?_append, hnone, Option.none_or]
  exact List.find?_cons_of_pos (decide_eq_true rfl)

/-- A new rule takes no topic from a rule that is there. -/
theorem get?_offer (h : registry.get? topic = some rule) (other : Rule ι) :
    (registry.offer other).get? topic = some rule := by
  rw [offer]
  cases hregister : registry.register other with
  | error _ => exact h
  | ok next =>
    obtain ⟨-, rfl⟩ := register_eq_ok_iff.mp hregister
    rw [get?] at h ⊢
    rw [List.find?_append, h, Option.some_or]

theorem get?_offerAll (h : registry.get? topic = some rule) (later : List (Rule ι)) :
    (registry.offerAll later).get? topic = some rule := by
  induction later generalizing registry with
  | nil => exact h
  | cons other rest ih => exact ih (get?_offer h other)

variable [DecidableEq ι]

/-- The events of the rule are sent by the rule, each as soon as its payload has a finding. -/
structure Serves (registry : Registry ι) (rule : Rule ι) : Prop where
  /-- What comes of the event, and of the sinks, is what comes of sending the finding. -/
  route_eq : ∀ event ∈ rule.eventNames, ∀ payload finding,
    Finding.ofPayload event.kind payload = .ok finding →
    ∀ (σ : Type) (sink : Sink σ) (states : ι → σ),
    registry.route sink ⟨event.text, payload⟩ states =
      ((rule.send sink finding states).1.outcome, (rule.send sink finding states).2)
  /-- So the event is neither unknown nor unheard. -/
  outcome_ne : ∀ event ∈ rule.eventNames, ∀ payload finding,
    Finding.ofPayload event.kind payload = .ok finding →
    ∀ (σ : Type) (sink : Sink σ) (states : ι → σ),
    (registry.route sink ⟨event.text, payload⟩ states).1 ≠ .unheard ∧
      ∀ error, (registry.route sink ⟨event.text, payload⟩ states).1 ≠ .unreadable error

/-- The events of the rule are unknown, whatever their payloads, and no sink is called. -/
def Overlooks (registry : Registry ι) (rule : Rule ι) : Prop :=
  ∀ event ∈ rule.eventNames, ∀ payload, ∀ (σ : Type) (sink : Sink σ) (states : ι → σ),
    registry.route sink ⟨event.text, payload⟩ states =
      (.unreadable (.unknownName event.text), states)

theorem serves_of_isTopic (hrule : registry.get? rule.dialect.topic = some rule)
    (htopic : EventName.IsTopic rule.dialect.topic.toList) : registry.Serves rule := by
  have hroute : ∀ event ∈ rule.eventNames, ∀ payload finding,
      Finding.ofPayload event.kind payload = .ok finding → ∀ (σ : Type) (sink : Sink σ)
      (states : ι → σ), registry.route sink ⟨event.text, payload⟩ states =
        ((rule.send sink finding states).1.outcome, (rule.send sink finding states).2) := by
    intro event hevent payload finding hpayload σ sink states
    have heq := Rule.mem_eventNames_iff.mp hevent
    rw [← heq] at hrule htopic
    exact route_of_ok (EventName.names_text_iff.mpr htopic) hrule hpayload
  refine ⟨hroute, ?_⟩
  intro event hevent payload finding hpayload σ sink states
  rw [hroute event hevent payload finding hpayload]
  exact ⟨Delivery.outcome_ne_unheard _, Delivery.outcome_ne_unreadable _⟩

/-- It does not matter what rules there are: the name is looked at first. -/
theorem overlooks_of_not_isTopic (htopic : ¬ EventName.IsTopic rule.dialect.topic.toList)
    (registry : Registry ι) : registry.Overlooks rule := by
  intro event hevent payload σ sink states
  apply route_of_unnamed
  intro other hother
  obtain rfl := EventName.text_injective hother.text_eq
  rw [← Rule.mem_eventNames_iff.mp hevent] at htopic
  exact htopic hother.isTopic

/-- No rule is both served and overlooked. -/
theorem Overlooks.not_serves (h : registry.Overlooks rule) : ¬ registry.Serves rule := by
  intro hserves
  obtain ⟨payload, finding, hpayload⟩ := Finding.exists_ofPayload_json
  have hevent : rule.dialect.eventName .json ∈ rule.eventNames := List.mem_cons_self
  -- Any sink will do, as it is not called.
  let sink : Sink Unit := fun _ _ => (.accepted, ())
  have hne := (hserves.outcome_ne _ hevent payload finding hpayload Unit sink fun _ => ()).2
  have hunknown := congrArg Prod.fst (h _ hevent payload Unit sink fun _ => ())
  exact hne _ hunknown

/-- A registered rule is served, in whatever comes of the registry later, just where its topic can
be read back. Where it cannot, all events of the rule are unknown. -/
theorem serves_iff_isTopic (hregister : registry.register rule = .ok next) (later : List (Rule ι)) :
    ((next.offerAll later).Serves rule ↔ EventName.IsTopic rule.dialect.topic.toList) ∧
      (¬ EventName.IsTopic rule.dialect.topic.toList → (next.offerAll later).Overlooks rule) := by
  have hrule := get?_offerAll (get?_of_register hregister) later
  refine ⟨⟨?_, serves_of_isTopic hrule⟩, fun htopic => overlooks_of_not_isTopic htopic _⟩
  intro hserves
  by_contra htopic
  exact (overlooks_of_not_isTopic htopic _).not_serves hserves

/-- The rule for babel files is served, also after rules for another format and for the same. -/
theorem serves_iff_isTopic_babel :
    ({} : Registry Nat).register ⟨.babel, 0⟩ = .ok ⟨[⟨.babel, 0⟩]⟩ ∧
      (offerAll ⟨[⟨.babel, 0⟩]⟩ [⟨.typescript, 1⟩, ⟨.babel, 2⟩]).Serves ⟨.babel, 0⟩ := by
  have hregister : ({} : Registry Nat).register ⟨.babel, 0⟩ = .ok ⟨[⟨.babel, 0⟩]⟩ := rfl
  have htopic : EventName.IsTopic Dialect.babel.topic.toList := by decide
  exact ⟨hregister, (serves_iff_isTopic hregister _).1.mpr htopic⟩

/-- A rule for a topic on two lines is registered, but never gets an event. -/
theorem not_serves_two_lines :
    ({} : Registry Nat).register ⟨{ topic := "a\nb" }, 0⟩ = .ok ⟨[⟨{ topic := "a\nb" }, 0⟩]⟩ ∧
      ¬ Serves (⟨[⟨{ topic := "a\nb" }, 0⟩]⟩ : Registry Nat) ⟨{ topic := "a\nb" }, 0⟩ := by
  refine ⟨rfl, Overlooks.not_serves (overlooks_of_not_isTopic ?_ _)⟩
  decide

end Registry

end ConfigDiagnostics
