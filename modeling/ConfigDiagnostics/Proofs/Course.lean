import ConfigDiagnostics.Engine
import ConfigDiagnostics.Proofs.EventLoop

/-!
# What a run comes to

Where jobs handle their events at once, a run handles all events in some order, one after another.
The tally at the end is that of their outcomes, and at any time the events that were received are
those in the published tally and those in flight.

## Main definitions

* `Loop.inOrder`: handling events one after another
* `Loop.Course`: what is true of a run, how far ever it has come

## Main results

* `Loop.Steps.serializes`: a run to the end handles the events in some order
* `Loop.course_of_steps`: every run takes its course
* `Engine.steps_of_run?`: what the engine does is such a run, to its end
-/

namespace ConfigDiagnostics

variable {ε ω : Type}

namespace Loop

/-- Handles events one after another: the outcomes, and the world after the last. -/
def inOrder (handle : ε → ω → Outcome × ω) : List ε → ω → List Outcome × ω
  | [], world => ([], world)
  | event :: rest, world =>
    let (outcome, world) := handle event world
    let (outcomes, world) := inOrder handle rest world
    (outcome :: outcomes, world)

theorem length_inOrder (handle : ε → ω → Outcome × ω) (events : List ε) (world : ω) :
    (inOrder handle events world).1.length = events.length := by
  induction events generalizing world with
  | nil => rfl
  | cons event rest ih => exact congrArg (· + 1) (ih _)

variable {handle : ε → ω → Outcome × ω} {move : Move} {moves : List Move}
  {loop last : Loop ε ω}

/-- What is pending is handled in some order, in the world as it is, and all outcomes are counted.
It ends with the tally and the world. -/
def Serializes (handle : ε → ω → Outcome × ω) (pending : List (Job ε)) (world : ω) (tally : Tally)
    (lastWorld : ω) (lastTally : Tally) : Prop :=
  ∃ order : List ε, order.Perm (pending.filterMap Job.event?) ∧
    lastTally = (pending.filterMap Job.outcome? ++ (inOrder handle order world).1).foldl
      Tally.record tally ∧
    lastWorld = (inOrder handle order world).2

theorem Effect.serializes {pending rest : List (Job ε)} {world world' lastWorld : ω}
    {tally tally' lastTally : Tally}
    (h : Effect (Job.atOnce handle) move pending world tally rest world' tally')
    (hrest : Serializes handle rest world' tally' lastWorld lastTally) :
    Serializes handle pending world tally lastWorld lastTally := by
  obtain ⟨order, horder, htally, hworld⟩ := hrest
  cases h with
  | receive => exact ⟨order, horder, htally, hworld⟩
  | @work job before event after =>
    -- The event is handled now, so before all that is handled later.
    refine ⟨event :: order, ?_, ?_, hworld⟩
    · rw [List.filterMap_append] at horder ⊢
      exact (horder.cons event).trans List.perm_middle.symm
    · rw [htally]
      apply Tally.foldl_record_perm
      rw [List.filterMap_append, List.filterMap_append, List.append_assoc, List.append_assoc]
      exact List.Perm.append_left _ List.perm_middle.symm
  | @join job before outcome after =>
    refine ⟨order, ?_, ?_, hworld⟩
    · rw [List.filterMap_append] at horder ⊢
      exact horder
    · rw [htally, ← List.foldl_cons]
      apply Tally.foldl_record_perm
      rw [List.filterMap_append, List.filterMap_append, List.append_assoc, List.append_assoc]
      exact List.perm_middle.symm

/-- A run to the end handles the events in some order, one after another. -/
theorem Steps.serializes (h : Steps (Job.atOnce handle) moves loop last)
    (hlast : last.pending = []) :
    Serializes handle loop.pending loop.world loop.tally last.world last.tally := by
  induction h with
  | nil => exact ⟨[], by rw [hlast]; exact .nil, by rw [hlast]; rfl, rfl⟩
  | cons hstep _ ih => exact hstep.effect.serializes (ih hlast)

/-- A job that handles its event at once needs one turn. -/
theorem progresses_atOnce {Kept : ω → Prop}
    (hkept : ∀ event world, Kept world → Kept (handle event world).2) :
    Progresses (Job.atOnce handle) (fun _ => 1) Kept where
  kept := hkept
  turns_lt _ _ _ := Nat.zero_lt_one

/-- What is true of a run, how far ever it has come. -/
structure Course (handle : ε → ω → Outcome × ω) (events : List ε) (world : ω) (moves : List Move)
    (loop : Loop ε ω) : Prop where
  /-- The events that were received are those that the published progress counts. -/
  received : ∃ received, events = received ++ loop.queue ∧
    loop.published.tally.events + loop.published.inFlight = received.length ∧
    moves.count .receive = received.length + if loop.receiving then 0 else 1
  /-- No number in a tally decreases, nor in a published one. -/
  grows : ∀ later last, Steps (Job.atOnce handle) later loop last →
    loop.tally.AtMost last.tally ∧ loop.published.tally.AtMost last.published.tally
  /-- Unless the loop is over, it can go on; when it is over, it stops. -/
  isOver_iff_not_step : loop.IsOver ↔
    ∀ move next, ¬ Step (Job.atOnce handle) move loop next
  /-- It cannot go on for ever. -/
  length_le : moves.length ≤ 3 * events.length + 1
  /-- It is over as soon as progress was published so many times. -/
  isOver_iff : loop.IsOver ↔ moves.countP Move.publishes = 2 * events.length + 1
  /-- By then every event was received, the channel was closed, and every job was joined. -/
  moves_of_isOver : loop.IsOver →
    moves.count .receive = events.length + 1 ∧ moves.countP Move.joins = events.length
  /-- The tally is that of all outcomes, with the events handled in some order. -/
  tally_of_isOver : loop.IsOver → ∃ order outcomes, order.Perm events ∧
    inOrder handle order world = (outcomes, loop.world) ∧
    loop.tally = Tally.ofOutcomes outcomes ∧ loop.tally.events = events.length ∧
    loop.tally.reported = ((outcomes.filter Outcome.isReported).map Outcome.count).sum
  /-- The progress that was published last has this tally, and nothing in flight. -/
  published_of_isOver : loop.IsOver → loop.published = ⟨loop.tally, 0⟩

theorem pending_start (events : List ε) (world : ω) :
    (start events world).pending = events.map Job.waiting := rfl

theorem joinsLeft_start (events : List ε) (world : ω) :
    (start events world).joinsLeft = events.length := by
  rw [joinsLeft, pending_start, List.length_map]

theorem event?_pending_start (events : List ε) (world : ω) :
    (start events world).pending.filterMap Job.event? = events := by
  rw [pending_start, List.filterMap_map]
  exact List.filterMap_some

theorem outcome?_pending_start (events : List ε) (world : ω) :
    (start events world).pending.filterMap Job.outcome? = [] := by
  rw [pending_start, List.filterMap_map, List.filterMap_eq_nil_iff]
  exact fun _ _ => rfl

theorem workLeft_start (events : List ε) (world : ω) :
    (start events world).workLeft (fun _ => 1) = events.length := by
  rw [workLeft, pending_start, List.map_map]
  induction events with
  | nil => rfl
  | cons event rest ih => rw [List.map_cons, List.sum_cons, ih, Nat.add_comm]; rfl

/-- The events that were received are those in the tally and those that jobs are handling. -/
theorem Steps.exists_received {turn : ε → ω → Job ε × ω} {events : List ε} {world : ω}
    (h : Steps turn moves (start events world) loop) :
    ∃ received, events = received ++ loop.queue ∧
      loop.tally.events + loop.jobs.length = received.length ∧
      moves.count .receive = received.length + if loop.receiving then 0 else 1 := by
  obtain ⟨received, hreceived⟩ := h.queue_suffix
  have hlength : received.length + loop.queue.length = events.length := by
    rw [← List.length_append, hreceived]
    rfl
  have hevents : loop.tally.events + (loop.jobs.length + loop.queue.length) = events.length := by
    have hjoins := h.events_add_joinsLeft
    rw [joinsLeft_start, joinsLeft, pending, List.length_append, List.length_map] at hjoins
    exact hjoins.trans (Nat.zero_add _)
  have hreceipts : events.length + 1 = loop.receiptsLeft + moves.count .receive :=
    h.receiptsLeft_eq
  refine ⟨received, hreceived.symm, by omega, ?_⟩
  -- One more receipt has been made if the end of the channel was received.
  rw [receiptsLeft] at hreceipts
  by_cases hreceiving : loop.receiving = true
  · rw [if_pos hreceiving] at hreceipts ⊢
    omega
  · rw [if_neg hreceiving] at hreceipts ⊢
    omega

/-- Every run takes its course. -/
theorem course_of_steps {events : List ε} {world : ω}
    (h : Steps (Job.atOnce handle) moves (start events world) loop) :
    Course handle events world moves loop := by
  have hsound := h.sound (sound_start events world)
  have hreceipts : events.length + 1 = loop.receiptsLeft + moves.count .receive :=
    h.receiptsLeft_eq
  have hjoins : events.length = loop.joinsLeft + moves.countP Move.joins := by
    rw [← joinsLeft_start events world]
    exact h.joinsLeft_eq
  have hpublishes := Move.countP_publishes moves
  refine ⟨?_, ?_, isOver_iff_not_step, ?_, ?_, ?_, ?_, ?_⟩
  · rw [hsound.published_eq]
    exact h.exists_received
  · intro later last hlater
    refine ⟨hlater.atMost, ?_⟩
    rw [hsound.published_eq, (hlater.sound hsound).published_eq]
    exact hlater.atMost
  · have hprogress : Progresses (Job.atOnce handle) (fun _ => 1) fun _ => True :=
      progresses_atOnce fun _ _ => id
    have hleft := h.length_add_left_le hprogress trivial
    have hstart : (start events world).receiptsLeft = events.length + 1 := rfl
    rw [hstart, joinsLeft_start, workLeft_start] at hleft
    omega
  · -- A publishing move is a receipt or a joining, and all of them are used up.
    rw [hsound.isOver_iff]
    omega
  · intro hover
    have hleft := hsound.isOver_iff.mp hover
    omega
  · intro hover
    obtain ⟨order, horder, htally, hworld⟩ := h.serializes (hsound.pending_eq_nil hover)
    -- At the start nothing is done yet, and all events are pending.
    rw [event?_pending_start] at horder
    rw [outcome?_pending_start, List.nil_append] at htally
    have htally : loop.tally = Tally.ofOutcomes (inOrder handle order world).1 :=
      htally.trans (Tally.foldl_record_zero _)
    refine ⟨order, _, horder, Prod.ext rfl hworld.symm, htally, ?_, ?_⟩
    · rw [htally, Tally.events_ofOutcomes, length_inOrder, horder.length_eq]
    · rw [htally, Tally.reported_ofOutcomes]
  · intro hover
    rw [hsound.published_eq, hover.2]
    rfl

/-- Two events are received, and the second is handled and joined before the first, which fails. -/
theorem course_of_steps_overtaking :
    ∃ loop : Loop Outcome Nat,
      Steps (Job.atOnce fun outcome handled => (outcome, handled + 1))
        [.receive, .receive, .work 1, .join 1, .receive, .work 0, .join 0]
        (start [.crashed, .reported 2] 0) loop ∧
      loop.IsOver ∧ loop.tally = { handled := 1, failed := 1, reported := 2 } ∧
      Course (fun outcome handled => (outcome, handled + 1)) [.crashed, .reported 2] 0
        [.receive, .receive, .work 1, .join 1, .receive, .work 0, .join 0] loop := by
  refine ⟨{ queue := [], receiving := false, world := 2,
            tally := { handled := 1, failed := 1, reported := 2 },
            published := { tally := { handled := 1, failed := 1, reported := 2 } } },
    ?_, ⟨rfl, rfl⟩, rfl, ?_⟩
  · exact steps_of_foldlM rfl
  · exact course_of_steps (steps_of_foldlM rfl)

/-- Dealing with each event before the next is received is a run. -/
theorem steps_inTurn (handle : ε → ω → Outcome × ω) (events : List ε) (world : ω) (tally : Tally)
    (published : Progress) :
    ∃ world' tally' published',
      follow (Job.atOnce handle) { queue := events, world, tally, published }
        (inTurn events.length) =
        { queue := [], world := world', tally := tally', published := published' } ∧
      Steps (Job.atOnce handle) (inTurn events.length)
        { queue := events, world, tally, published }
        { queue := [], world := world', tally := tally', published := published' } := by
  induction events generalizing world tally published with
  | nil => exact ⟨world, tally, published, rfl, .nil⟩
  | cons event rest ih =>
    -- After the three moves for an event the loop is as at its start, with the rest in the channel.
    obtain ⟨world', tally', published', hfollow, hsteps⟩ :=
      ih (handle event world).2 (tally.record (handle event world).1)
        ⟨tally.record (handle event world).1, 0⟩
    refine ⟨world', tally', published', hfollow, ?_⟩
    exact .cons (.receive rfl rfl) (.cons (.work rfl) (.cons (.join rfl) hsteps))

end Loop

/-- What the engine does is a run of the event loop, to its end. -/
theorem Engine.steps_of_run? {ι σ : Type} [DecidableEq ι] {engine next : Engine} {sink : Sink σ}
    {registry : Registry ι} {events : List Announcement} {states after : ι → σ} {run : Run}
    (h : engine.run? sink registry events states = some (run, next, after)) :
    ∃ loop, Loop.Steps (Job.atOnce (registry.route sink))
        (Loop.inTurn events.length ++ [.receive]) (Loop.start events states) loop ∧
      loop.IsOver ∧ run.tally = loop.tally ∧ run.afterClosing = loop.published ∧
      next = { engine with progress := loop.published } ∧ after = loop.world := by
  obtain ⟨world, tally, published, hfollow, hsteps⟩ :=
    Loop.steps_inTurn (registry.route sink) events states {} {}
  simp only [Engine.run?, Loop.start, hfollow] at h
  split at h
  · obtain ⟨rfl, rfl, rfl⟩ := Option.some.inj h
    refine ⟨_, hsteps.append (.cons (.close rfl rfl) .nil), ⟨rfl, rfl⟩, rfl, rfl, rfl, rfl⟩
  · cases h

end ConfigDiagnostics
