import ConfigDiagnostics.Proofs.Answering
import ConfigDiagnostics.Proofs.Course
import ConfigDiagnostics.Proofs.Interleaving

/-!
# Events do not disturb each other

On sinks that answer by the diagnostic alone it does not matter for an event what other events make
the sinks accept, before it or between two of its calls. So a run comes to the same tally in every
order of its moves, and each sink accepts an interleaving of what it accepts of each event by
itself. This is so whether jobs handle their events at once or call by call.

## Main definitions

* `Loop.Separable`: turns that do not depend on what sinks hold
* `Loop.EndsIn`: every run ends, with a property
* `Registry.Isolated`: a run comes to what its events come to by themselves

## Main results

* `Loop.Steps.collects`: what a run comes to, where turns are separable
* `Registry.endsIn_isolated`: every run of events ends so, in every order
-/

namespace ConfigDiagnostics

open Answering (holding AcceptsAll)

variable {ε ω ι : Type}

namespace Job

/-- The outcome that a job has or is going to have. -/
def ending (ending : ε → Outcome) : Job ε → Outcome
  | waiting event => ending event
  | done outcome => outcome

/-- What a job is going to make a sink accept. -/
def share (share : ε → ι → List Diagnostic) (index : ι) : Job ε → List Diagnostic
  | waiting event => share event index
  | done _ => []

end Job

namespace Loop

/-- On sinks with the answers, a turn adds to what the sinks hold, and leaves the job with the rest
of what the event comes to. -/
def Separable (turn : ε → (ι → Answering) → Job ε × (ι → Answering))
    (answers : ι → Diagnostic → Reply) (ending : ε → Outcome)
    (share : ε → ι → List Diagnostic) : Prop :=
  ∀ event held, ∃ given : ι → List Diagnostic, ∃ job : Job ε,
    turn event (holding answers held) =
      (job, holding answers fun index => held index ++ given index) ∧
    job.ending ending = ending event ∧
    ∀ index, given index ++ job.share share index = share event index

/-- What is pending comes to the tally and the sinks: all outcomes are counted, and each sink
accepts an interleaving of the shares. -/
def Collects (answers : ι → Diagnostic → Reply) (ending : ε → Outcome)
    (share : ε → ι → List Diagnostic) (pending : List (Job ε)) (held : ι → List Diagnostic)
    (tally lastTally : Tally) (lastWorld : ι → Answering) : Prop :=
  lastTally = (pending.map (Job.ending ending)).foldl Tally.record tally ∧
    ∃ accepted : ι → List Diagnostic,
      lastWorld = holding answers (fun index => held index ++ accepted index) ∧
      ∀ index, Interleaves (pending.map (Job.share share index)) (accepted index)

variable {turn : ε → (ι → Answering) → Job ε × (ι → Answering)}
  {answers : ι → Diagnostic → Reply} {ending : ε → Outcome} {share : ε → ι → List Diagnostic}
  {move : Move} {moves : List Move}

theorem Effect.collects (hturn : Separable turn answers ending share) {pending rest : List (Job ε)}
    {held : ι → List Diagnostic} {world lastWorld : ι → Answering} {tally next lastTally : Tally}
    (h : Effect turn move pending (holding answers held) tally rest world next) :
    ∃ held', world = holding answers held' ∧
      (Collects answers ending share rest held' next lastTally lastWorld →
        Collects answers ending share pending held tally lastTally lastWorld) := by
  cases h with
  | receive => exact ⟨held, rfl, id⟩
  | @work job before event after =>
    -- What the turn adds comes before all that is added later, and it is the first of its share.
    obtain ⟨given, job, hjob, hending, hshare⟩ := hturn event held
    rw [hjob]
    refine ⟨_, rfl, ?_⟩
    rintro ⟨htally, accepted, hworld, haccepted⟩
    refine ⟨?_, fun index => given index ++ accepted index, ?_, ?_⟩
    · rw [htally, List.map_append, List.map_append, List.map_cons, List.map_cons, hending]
      rfl
    · rw [hworld]
      funext index
      exact congrArg (Answering.mk _) (List.append_assoc ..)
    · intro index
      have hall := haccepted index
      rw [List.map_append, List.map_cons] at hall ⊢
      have hwaiting : (Job.waiting event).share share index =
          given index ++ job.share share index := (hshare index).symm
      rw [hwaiting]
      exact hall.append_left (given index)
  | @join job before outcome after =>
    -- A job that is done adds nothing to the sinks, and its outcome is counted now or later.
    refine ⟨held, rfl, ?_⟩
    rintro ⟨htally, accepted, hworld, haccepted⟩
    refine ⟨?_, accepted, hworld, ?_⟩
    · rw [htally, ← List.foldl_cons]
      apply Tally.foldl_record_perm
      rw [List.map_append, List.map_append]
      exact List.perm_middle.symm
    · intro index
      have hall := haccepted index
      rw [List.map_append] at hall ⊢
      exact hall.insert_nil

/-- What a run comes to does not depend on the order of its moves. -/
theorem Steps.collects (hturn : Separable turn answers ending share)
    {loop last : Loop ε (ι → Answering)} (h : Steps turn moves loop last)
    (hlast : last.pending = []) {held : ι → List Diagnostic}
    (hworld : loop.world = holding answers held) :
    Collects answers ending share loop.pending held loop.tally last.tally last.world := by
  induction h generalizing held with
  | nil =>
    rw [hlast, hworld]
    refine ⟨rfl, fun _ => [], ?_, fun _ => .nil nofun⟩
    funext index
    exact congrArg (Answering.mk _) (List.append_nil _).symm
  | cons hstep _ ih =>
    have heffect := hstep.effect
    rw [hworld] at heffect
    obtain ⟨held', hnext, hcollects⟩ := heffect.collects hturn
    exact hcollects (ih hlast hnext)

/-- Every run ends, since it can go on until it is over but not for ever, and then the property
holds of the tally and the world. -/
structure EndsIn (turn : ε → ω → Job ε × ω) (loop : Loop ε ω) (Final : Tally → ω → Prop) :
    Prop where
  bounded : ∃ bound, ∀ moves last, Steps turn moves loop last → moves.length ≤ bound
  goes_on : ∀ moves last, Steps turn moves loop last → ¬ last.IsOver →
    ∃ move next, Step turn move last next
  final : ∀ moves last, Steps turn moves loop last → last.IsOver → Final last.tally last.world

theorem EndsIn.mono {turn : ε → ω → Job ε × ω} {loop : Loop ε ω} {Final Other : Tally → ω → Prop}
    (h : EndsIn turn loop Final) (hfinal : ∀ tally world, Final tally world → Other tally world) :
    EndsIn turn loop Other where
  bounded := h.bounded
  goes_on := h.goes_on
  final moves last hsteps hover := hfinal _ _ (h.final moves last hsteps hover)

/-- Runs of separable turns end, and come to what their events come to. -/
theorem endsIn_of_separable {size : ε → Nat} (hturn : Separable turn answers ending share)
    (hprogress : Progresses turn size fun world => ∃ held, world = holding answers held)
    (events : List ε) (held : ι → List Diagnostic) :
    EndsIn turn (start events (holding answers held)) fun tally world =>
      tally = Tally.ofOutcomes (events.map ending) ∧
        ∃ accepted : ι → List Diagnostic,
          world = holding answers (fun index => held index ++ accepted index) ∧
          ∀ index, Interleaves (events.map fun event => share event index) (accepted index) where
  bounded := ⟨_, fun _ _ h => Nat.le_of_add_right_le (h.length_add_left_le hprogress ⟨held, rfl⟩)⟩
  goes_on moves last _ hover := by
    by_contra hstuck
    exact hover (isOver_iff_not_step.mpr fun move next hstep => hstuck ⟨move, next, hstep⟩)
  final moves last h hover := by
    have hlast := (h.sound (sound_start events _)).pending_eq_nil hover
    obtain ⟨htally, accepted, hworld, haccepted⟩ := h.collects hturn hlast rfl
    rw [pending_start, List.map_map] at htally
    refine ⟨htally.trans (Tally.foldl_record_zero _), accepted, hworld, fun index => ?_⟩
    have hall := haccepted index
    rwa [pending_start, List.map_map] at hall

end Loop

namespace Script

variable [DecidableEq ι] (answers : ι → Diagnostic → Reply)

/-- Handling events call by call is separable. -/
theorem separable_turn : Loop.Separable (turn Answering.report) answers (ending answers)
    (share answers) := by
  intro script held
  cases script with
  | done outcome =>
    refine ⟨fun _ => [], .done outcome, Prod.ext rfl (funext fun index => ?_), rfl, fun _ => rfl⟩
    exact congrArg (Answering.mk _) (List.append_nil _).symm
  | send index diagnostic resume =>
    exact ⟨_, _, turn_send index diagnostic resume held, rfl, fun _ => rfl⟩

/-- Every call is one turn less. -/
theorem progresses_turn : Loop.Progresses (turn Answering.report) (turns answers)
    fun world => ∃ held, world = holding answers held where
  kept script world hworld := by
    obtain ⟨held, rfl⟩ := hworld
    cases script with
    | done outcome => exact ⟨held, rfl⟩
    | send index diagnostic resume => exact ⟨_, congrArg Prod.snd (turn_send ..)⟩
  turns_lt script world hworld := by
    obtain ⟨held, rfl⟩ := hworld
    cases script with
    | done outcome => exact Nat.zero_lt_one
    | send index diagnostic resume =>
      rw [turn_send]
      exact Nat.lt_succ_self _

end Script

namespace Registry

variable [DecidableEq ι] (registry : Registry ι) (answers : ι → Diagnostic → Reply)

/-- Routing events at once is separable. -/
theorem separable_atOnce : Loop.Separable (Job.atOnce (registry.route Answering.report)) answers
    (fun event => (registry.alone answers event).1) (registry.accepts answers) := by
  intro event held
  refine ⟨registry.accepts answers event, .done (registry.alone answers event).1, ?_, rfl,
    fun _ => List.append_nil _⟩
  rw [Job.atOnce, route_holding]

/-- Routing an event leaves the answers of the sinks as they are. -/
theorem exists_route_eq_holding (event : Announcement) (world : ι → Answering)
    (hworld : ∃ held, world = holding answers held) :
    ∃ held, (registry.route Answering.report event world).2 = holding answers held := by
  obtain ⟨held, rfl⟩ := hworld
  exact ⟨_, congrArg Prod.snd (route_holding held)⟩

/-- A run of events comes to what the events come to by themselves: the tally, and what each sink
accepted in the run. -/
structure Isolated (held : ι → List Diagnostic) (events : List Announcement) (tally : Tally)
    (world : ι → Answering) (accepted : ι → List Diagnostic) : Prop where
  /-- The tally is that of the outcomes of the events by themselves. -/
  tally_eq : tally = Tally.ofOutcomes (events.map fun event => (registry.alone answers event).1)
  /-- Each sink holds what it held and what it accepted. -/
  world_eq : world = holding answers fun index => held index ++ accepted index
  /-- What it accepted is what it accepts of the events by themselves, each diagnostic as often. -/
  accepted_perm : ∀ index, (accepted index).Perm
    (events.flatMap fun event => registry.accepts answers event index)
  /-- What it accepted about a resource of a single event is in the order of that event. -/
  filter_eq : ∀ before event after resource, events = before ++ event :: after →
    event.Announces resource → (∀ other ∈ before ++ after, ¬ other.Announces resource) →
    ∀ index, (accepted index).filter (fun diagnostic => diagnostic.resource = resource) =
      registry.accepts answers event index
  /-- Where every diagnostic is accepted, what is reported is what the sinks accepted. -/
  reported_eq : (∀ rule ∈ registry.rules, ∀ diagnostic, answers rule.sink diagnostic = .accepted) →
    ∀ sinks : List ι, sinks.Nodup → (∀ rule ∈ registry.rules, rule.sink ∈ sinks) →
    tally.reported = (sinks.map fun index => (accepted index).length).sum

variable {registry answers}

/-- What sinks that accept everything accept of events is what is reported of them. -/
theorem sum_length_flatMap_accepts
    (haccept : ∀ rule ∈ registry.rules, ∀ diagnostic, answers rule.sink diagnostic = .accepted)
    {sinks : List ι} (hnodup : sinks.Nodup) (hsinks : ∀ rule ∈ registry.rules, rule.sink ∈ sinks)
    (events : List Announcement) :
    (sinks.map fun index =>
      (events.flatMap fun event => registry.accepts answers event index).length).sum =
      ((events.map fun event => (registry.alone answers event).1).map Outcome.count).sum := by
  induction events with
  | nil => exact List.sum_eq_zero (List.forall_mem_map.mpr fun _ _ => rfl)
  | cons event rest ih =>
    simp only [List.flatMap_cons, List.length_append]
    rw [List.sum_map_add, ih, sum_length_accepts haccept hnodup hsinks event]
    rfl

/-- Events that arrive in some order come to what they come to by themselves. -/
theorem isolated_of_interleaves {held accepted : ι → List Diagnostic} {tally : Tally}
    {world : ι → Answering} {events arrived : List Announcement} (harrived : arrived.Perm events)
    (htally : tally =
      Tally.ofOutcomes (arrived.map fun event => (registry.alone answers event).1))
    (hworld : world = holding answers fun index => held index ++ accepted index)
    (haccepted : ∀ index, Interleaves
      (arrived.map fun event => registry.accepts answers event index) (accepted index)) :
    registry.Isolated answers held events tally world accepted := by
  have hevents : ∀ index, Interleaves
      (events.map fun event => registry.accepts answers event index) (accepted index) :=
    fun index => (haccepted index).of_perm (harrived.map _)
  have htally : tally =
      Tally.ofOutcomes (events.map fun event => (registry.alone answers event).1) :=
    htally.trans (Tally.ofOutcomes_perm (harrived.map _))
  have hperm : ∀ index, (accepted index).Perm
      (events.flatMap fun event => registry.accepts answers event index) := by
    intro index
    rw [List.flatMap_def]
    exact (hevents index).perm_flatten
  refine ⟨htally, hworld, hperm, ?_, ?_⟩
  · -- No other event adds a diagnostic about the resource, so their interleaving is not seen.
    rintro before event after resource rfl hresource hothers index
    have hall := hevents index
    rw [List.map_append, List.map_cons] at hall
    have hfilter := hall.filter_eq (p := fun diagnostic => diagnostic.resource = resource) ?_
    · rw [hfilter, List.filter_eq_self]
      intro diagnostic hdiagnostic
      exact decide_eq_true ((announces_of_mem_accepts hdiagnostic).unique hresource)
    · rw [← List.map_append]
      refine List.forall_mem_map.mpr fun other hother diagnostic hdiagnostic heq => ?_
      have hannounces := announces_of_mem_accepts hdiagnostic
      rw [of_decide_eq_true heq] at hannounces
      exact hothers other hother hannounces
  · -- Both sides are sums over events and sinks.
    intro haccept sinks hnodup hsinks
    have hlengths : ∀ index, (accepted index).length =
        (events.flatMap fun event => registry.accepts answers event index).length :=
      fun index => (hperm index).length_eq
    simp only [hlengths]
    rw [sum_length_flatMap_accepts haccept hnodup hsinks, htally]
    rfl

/-- Every run of events ends, and comes to what the events come to by themselves: in whatever order
they arrive, jobs take their turns, and jobs are joined, and whether jobs handle their events call
by call or at once. -/
theorem endsIn_isolated (registry : Registry ι) (answers : ι → Diagnostic → Reply)
    (held : ι → List Diagnostic) {events arrived : List Announcement}
    (harrived : arrived.Perm events) :
    Loop.EndsIn (Script.turn Answering.report)
        (Loop.start (arrived.map registry.script) (holding answers held))
        (fun tally world => ∃ accepted,
          registry.Isolated answers held events tally world accepted) ∧
      Loop.EndsIn (Job.atOnce (registry.route Answering.report))
        (Loop.start arrived (holding answers held))
        (fun tally world => ∃ accepted,
          registry.Isolated answers held events tally world accepted) := by
  constructor
  · have hends := Loop.endsIn_of_separable (Script.separable_turn answers)
      (Script.progresses_turn answers) (arrived.map registry.script) held
    refine hends.mono ?_
    rintro tally world ⟨htally, accepted, hworld, haccepted⟩
    refine ⟨accepted, ?_⟩
    simp only [List.map_map, Function.comp_def, ending_script] at htally
    simp only [List.map_map, Function.comp_def, share_script] at haccepted
    exact isolated_of_interleaves harrived htally hworld haccepted
  · have hends := Loop.endsIn_of_separable (registry.separable_atOnce answers)
      (Loop.progresses_atOnce (registry.exists_route_eq_holding answers)) arrived held
    refine hends.mono ?_
    rintro tally world ⟨htally, accepted, hworld, haccepted⟩
    refine ⟨accepted, ?_⟩
    exact isolated_of_interleaves harrived htally hworld haccepted

/-- The parser failed on a resource. -/
def failureAt (resource : String) : Announcement where
  name := "babel-config::error::json"
  payload := .object
    [("error", .object [("message", .string "Unexpected end")]), ("resource", .string resource)]

/-- Every sink refuses what is about one resource and accepts all else. -/
def refusesLocked (_ : Nat) (diagnostic : Diagnostic) : Reply :=
  if diagnostic.resource = "locked.json" then .refused .closed else .accepted

/-- The event that arrives first is refused, and the other one is handled as it is by itself. -/
theorem endsIn_isolated_refusal :
    [failureAt "locked.json", failureAt ".babelrc"].Perm
        [failureAt ".babelrc", failureAt "locked.json"] ∧
      Loop.EndsIn (Job.atOnce (Registry.route Answering.report ⟨[⟨.babel, 0⟩]⟩))
        (Loop.start [failureAt "locked.json", failureAt ".babelrc"]
          (holding refusesLocked fun _ => []))
        fun tally _ => tally = { handled := 1, failed := 1, reported := 1 } := by
  have hperm : [failureAt "locked.json", failureAt ".babelrc"].Perm
      [failureAt ".babelrc", failureAt "locked.json"] := .swap ..
  have hends := (endsIn_isolated ⟨[⟨.babel, 0⟩]⟩ refusesLocked (fun _ => []) hperm).2
  refine ⟨hperm, hends.mono ?_⟩
  rintro tally world ⟨accepted, hisolated⟩
  rw [hisolated.tally_eq]
  decide

end Registry

end ConfigDiagnostics
