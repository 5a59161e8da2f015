import ConfigDiagnostics.Engine.Tally

/-!
# The event loop

Events wait in a channel. The loop receives them one by one and has each handled by a job of its
own; a job that is done is joined, and its outcome counted. Once the channel is closed and empty
nothing more is received, and the loop is over when the last job is joined. After every receipt
and every joining the progress is published.

In which order events are received, jobs do their work and jobs are joined is left open: a move
says which comes next. What a job does to the world in one turn is a parameter. A job may do all
its work in one turn, or leave the world to the other jobs between its turns.

## Main definitions

* `Job`: what a job is at
* `Job.atOnce`: the turn of a job that does all its work in it
* `Loop`, `Loop.start`, `Loop.IsOver`: a state of the loop, the first, and the last ones
* `Loop.Move`, `Loop.Step`, `Loop.Steps`: what may come next, once and repeatedly
* `Loop.step?`, `Loop.follow`: doing a move, and doing moves one after another
* `Loop.inTurn`: the moves that deal with each event before the next is received

## Main results

* `Loop.step?_eq_some_iff`: doing a move is what the relation says
-/

namespace ConfigDiagnostics

/-- What a job is at: it has an event to handle, or what is left of one, or it is done. -/
inductive Job (ε : Type) where
  | waiting (event : ε)
  | done (outcome : Outcome)
  deriving Repr

/-- The turn of a job that handles its event all at once. -/
def Job.atOnce {ε ω : Type} (handle : ε → ω → Outcome × ω) (event : ε) (world : ω) : Job ε × ω :=
  let (outcome, world) := handle event world
  (.done outcome, world)

/-- A state of the event loop: the events in the channel, which is closed behind them, whether the
loop still receives, the jobs that are not joined, the world in which events are handled, the
tally so far, and the progress that was published last. -/
structure Loop (ε ω : Type) where
  queue : List ε
  receiving : Bool := true
  jobs : List (Job ε) := []
  world : ω
  tally : Tally := {}
  published : Progress := {}

namespace Loop

variable {ε ω : Type}

/-- The loop before its first move, with events in the channel. -/
def start (events : List ε) (world : ω) : Loop ε ω where
  queue := events
  world

/-- Nothing more is received and no job is left. -/
def IsOver (loop : Loop ε ω) : Prop :=
  loop.receiving = false ∧ loop.jobs = []

/-- Publishes how far the loop has come. -/
def publish (loop : Loop ε ω) : Loop ε ω :=
  { loop with published := ⟨loop.tally, loop.jobs.length⟩ }

/-- What the loop, or one of its jobs, does next. -/
inductive Move where
  /-- The next event is received, or else the end of the channel. -/
  | receive
  /-- The job at this position, which is not done, takes a turn. -/
  | work (job : Nat)
  /-- The job at this position, which is done, is joined. -/
  | join (job : Nat)
  deriving DecidableEq, Repr

/-- The move is one after which progress is published. -/
def Move.publishes : Move → Bool
  | work _ => false
  | _ => true

variable (turn : ε → ω → Job ε × ω)

/-- What a move makes of a state, where it is possible. -/
inductive Step : Move → Loop ε ω → Loop ε ω → Prop
  | receive {loop event rest} : loop.receiving = true → loop.queue = event :: rest →
      Step .receive loop
        { loop with queue := rest, jobs := loop.jobs ++ [Job.waiting event] }.publish
  | close {loop} : loop.receiving = true → loop.queue = [] →
      Step .receive loop { loop with receiving := false }.publish
  | work {loop job event} : loop.jobs[job]? = some (.waiting event) →
      Step (.work job) loop
        { loop with
          jobs := loop.jobs.set job (turn event loop.world).1
          world := (turn event loop.world).2 }
  | join {loop job outcome} : loop.jobs[job]? = some (.done outcome) →
      Step (.join job) loop
        { loop with
          jobs := loop.jobs.eraseIdx job
          tally := loop.tally.record outcome }.publish

/-- What moves one after another make of a state. -/
inductive Steps : List Move → Loop ε ω → Loop ε ω → Prop
  | nil {loop} : Steps [] loop loop
  | cons {move moves loop next last} : Step turn move loop next → Steps moves next last →
      Steps (move :: moves) loop last

/-- Does a move, where it is possible. -/
def step? (loop : Loop ε ω) : Move → Option (Loop ε ω)
  | .receive =>
    if loop.receiving then
      match loop.queue with
      | [] => some { loop with receiving := false }.publish
      | event :: rest =>
        some { loop with queue := rest, jobs := loop.jobs ++ [Job.waiting event] }.publish
    else none
  | .work job =>
    match loop.jobs[job]? with
    | some (.waiting event) =>
      let (next, world) := turn event loop.world
      some { loop with jobs := loop.jobs.set job next, world }
    | _ => none
  | .join job =>
    match loop.jobs[job]? with
    | some (.done outcome) =>
      some { loop with
        jobs := loop.jobs.eraseIdx job, tally := loop.tally.record outcome }.publish
    | _ => none

theorem step?_eq_some_iff {loop next : Loop ε ω} {move : Move} :
    step? turn loop move = some next ↔ Step turn move loop next := by
  constructor
  · intro h
    cases move with
    | receive =>
      simp only [step?] at h
      split at h
      · rename_i hreceiving
        split at h
        · rename_i hqueue
          obtain rfl := Option.some.inj h
          exact .close hreceiving hqueue
        · rename_i hqueue
          obtain rfl := Option.some.inj h
          exact .receive hreceiving hqueue
      · cases h
    | work job =>
      simp only [step?] at h
      split at h
      · rename_i hjob
        obtain rfl := Option.some.inj h
        exact .work hjob
      · cases h
    | join job =>
      simp only [step?] at h
      split at h
      · rename_i hjob
        obtain rfl := Option.some.inj h
        exact .join hjob
      · cases h
  · intro h
    cases h with
    | receive hreceiving hqueue => simp [step?, hreceiving, hqueue]
    | close hreceiving hqueue => simp [step?, hreceiving, hqueue]
    | work hjob => simp [step?, hjob]
    | join hjob => simp [step?, hjob]

/-- Does moves one after another, up to the first that is not possible. -/
def follow (loop : Loop ε ω) : List Move → Loop ε ω
  | [] => loop
  | move :: moves =>
    match step? turn loop move with
    | some next => next.follow moves
    | none => loop

/-- The moves that receive so many events and deal with each, in one turn, before the next is
received. -/
def inTurn : Nat → List Move
  | 0 => []
  | events + 1 => .receive :: .work 0 :: .join 0 :: inTurn events

end Loop

end ConfigDiagnostics
