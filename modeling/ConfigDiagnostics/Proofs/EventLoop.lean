import ConfigDiagnostics.Engine.Loop
import ConfigDiagnostics.Proofs.Tally

/-!
# Runs of the event loop

An event is in the channel, then a job, then an outcome in the tally. Receiving an event moves it
on without looking at it, so what a move changes is best seen on the jobs and the channel together.
What is left to be received and joined gets less with every move that publishes progress, and what
jobs have left to do with every other move; so every run comes to its end.

## Main definitions

* `Loop.pending`: the jobs and the events that are going to be jobs
* `Loop.Effect`: what a move does to all that is pending, to the world and to the tally
* `Loop.receiptsLeft`, `Loop.joinsLeft`, `Loop.workLeft`: what a loop has left to do

## Main results

* `Loop.Step.effect`: every move has its effect
* `Loop.isOver_iff_not_step`: a loop is over when no move is possible
* `Loop.Steps.receiptsLeft_eq`, `Loop.Steps.joinsLeft_eq`, `Loop.Steps.length_add_left_le`: what the
  moves of a run have done of it
-/

namespace ConfigDiagnostics

variable {ε ω : Type}

namespace Job

/-- The event that a job has to handle, or what is left of it. -/
def event? : Job ε → Option ε
  | waiting event => some event
  | done _ => none

/-- The outcome of a job that is done. -/
def outcome? : Job ε → Option Outcome
  | waiting _ => none
  | done outcome => some outcome

/-- The number of turns that a job needs, if events need so many. -/
def turns (size : ε → Nat) : Job ε → Nat
  | waiting event => size event
  | done _ => 0

end Job

namespace Loop

/-- The move joins a job. -/
def Move.joins : Move → Bool
  | join _ => true
  | _ => false

/-- Progress is published after receipts and joinings. -/
theorem Move.countP_publishes (moves : List Move) :
    moves.countP publishes = moves.count .receive + moves.countP joins := by
  induction moves with
  | nil => rfl
  | cons move rest ih =>
    rw [List.countP_cons, List.countP_cons, List.count_cons, ih]
    cases move <;> simp [publishes, joins] <;> omega

/-- The jobs, and the events in the channel as the jobs they are going to be. -/
def pending (loop : Loop ε ω) : List (Job ε) :=
  loop.jobs ++ loop.queue.map Job.waiting

/-- What a move does to all that is pending, to the world and to the tally: receiving changes none
of them, a job's turn changes the job and the world, and a joined job goes into the tally. -/
inductive Effect (turn : ε → ω → Job ε × ω) :
    Move → List (Job ε) → ω → Tally → List (Job ε) → ω → Tally → Prop
  | receive {pending world tally} : Effect turn .receive pending world tally pending world tally
  | work {job before event after world tally} :
      Effect turn (.work job) (before ++ .waiting event :: after) world tally
        (before ++ (turn event world).1 :: after) (turn event world).2 tally
  | join {job before outcome after world tally} :
      Effect turn (.join job) (before ++ .done outcome :: after) world tally
        (before ++ after) world (tally.record outcome)

/-- The jobs before and after one of them, when it is replaced and when it is taken out. -/
theorem exists_split {jobs : List (Job ε)} {job : Nat} {current : Job ε}
    (h : jobs[job]? = some current) :
    ∃ before after, jobs = before ++ current :: after ∧
      (∀ next, jobs.set job next = before ++ next :: after) ∧
      jobs.eraseIdx job = before ++ after := by
  induction jobs generalizing job with
  | nil => cases h
  | cons first rest ih =>
    cases job with
    | zero =>
      obtain rfl := Option.some.inj h
      exact ⟨[], rest, rfl, fun _ => rfl, rfl⟩
    | succ job =>
      obtain ⟨before, after, hjobs, hset, herase⟩ := ih h
      exact ⟨first :: before, after, congrArg _ hjobs, fun next => congrArg _ (hset next),
        congrArg _ herase⟩

variable {turn : ε → ω → Job ε × ω} {move : Move} {moves later : List Move}
  {loop next last : Loop ε ω}

/-- Every move has its effect. -/
theorem Step.effect (h : Step turn move loop next) :
    Effect turn move loop.pending loop.world loop.tally next.pending next.world next.tally := by
  cases h with
  | @receive loop event rest _ hqueue =>
    -- The event moves from the front of the channel to the end of the jobs.
    have hpending : loop.jobs ++ [.waiting event] ++ rest.map .waiting = loop.pending := by
      rw [pending, hqueue, List.map_cons, List.append_assoc, List.singleton_append]
    exact hpending ▸ .receive
  | close => exact .receive
  | @work loop job event hjob =>
    obtain ⟨before, after, hjobs, hset, -⟩ := exists_split hjob
    rw [pending, pending, hset, hjobs, List.append_assoc, List.append_assoc]
    exact .work
  | @join loop job outcome hjob =>
    obtain ⟨before, after, hjobs, -, herase⟩ := exists_split hjob
    simp only [publish, pending]
    rw [herase, hjobs, List.append_assoc, List.append_assoc]
    exact .join

/-! ### What every move keeps -/

/-- Nothing is received after the end of the channel, and what is published is how far the loop has
come. -/
structure Sound (loop : Loop ε ω) : Prop where
  queue_eq_nil : loop.receiving = false → loop.queue = []
  published_eq : loop.published = ⟨loop.tally, loop.jobs.length⟩

theorem sound_start (events : List ε) (world : ω) : (start events world).Sound :=
  ⟨nofun, rfl⟩

theorem Step.sound (h : Step turn move loop next) (hloop : loop.Sound) : next.Sound := by
  cases h with
  | receive hreceiving _ => exact ⟨fun h => absurd (hreceiving.symm.trans h) nofun, rfl⟩
  | close _ hqueue => exact ⟨fun _ => hqueue, rfl⟩
  | @work loop job event _ =>
    refine ⟨hloop.queue_eq_nil, ?_⟩
    -- A turn changes a job but not how many there are, so what was published still holds.
    rw [hloop.published_eq, List.length_set]
  | join => exact ⟨hloop.queue_eq_nil, rfl⟩

theorem Steps.sound (h : Steps turn moves loop last) (hloop : loop.Sound) : last.Sound := by
  induction h with
  | nil => exact hloop
  | cons hstep _ ih => exact ih (hstep.sound hloop)

theorem Step.queue_suffix (h : Step turn move loop next) : next.queue <:+ loop.queue := by
  cases h with
  | receive _ hqueue => exact hqueue ▸ List.suffix_cons ..
  | close | work | join => exact List.suffix_rfl

/-- Events are received from the front of the channel. -/
theorem Steps.queue_suffix (h : Steps turn moves loop last) : last.queue <:+ loop.queue := by
  induction h with
  | nil => exact List.suffix_rfl
  | cons hstep _ ih => exact ih.trans hstep.queue_suffix

theorem Step.atMost (h : Step turn move loop next) : loop.tally.AtMost next.tally := by
  cases h with
  | receive | close | work => exact .refl _
  | join => exact Tally.atMost_record _ _

/-- No number in the tally ever decreases. -/
theorem Steps.atMost (h : Steps turn moves loop last) : loop.tally.AtMost last.tally := by
  induction h with
  | nil => exact .refl _
  | cons hstep _ ih => exact hstep.atMost.trans ih

theorem Steps.append (h : Steps turn moves loop next) (hlater : Steps turn later next last) :
    Steps turn (moves ++ later) loop last := by
  induction h with
  | nil => exact hlater
  | cons hstep _ ih => exact .cons hstep (ih hlater)

/-- Moves that can be done one after another are a run. -/
theorem steps_of_foldlM (h : moves.foldlM (step? turn) loop = some last) :
    Steps turn moves loop last := by
  induction moves generalizing loop with
  | nil =>
    obtain rfl := Option.some.inj h
    exact .nil
  | cons move rest ih =>
    obtain ⟨next, hnext, hrest⟩ := Option.bind_eq_some_iff.mp h
    exact .cons ((step?_eq_some_iff turn).mp hnext) (ih hrest)

/-! ### What is left to do -/

/-- The receipts that are left: of all events in the channel, and of its end. -/
def receiptsLeft (loop : Loop ε ω) : Nat :=
  loop.queue.length + if loop.receiving then 1 else 0

/-- The joinings that are left: of all jobs and of those that will be. -/
def joinsLeft (loop : Loop ε ω) : Nat :=
  loop.pending.length

/-- The turns that are left to all jobs and those that will be. -/
def workLeft (size : ε → Nat) (loop : Loop ε ω) : Nat :=
  (loop.pending.map (Job.turns size)).sum

theorem Step.receiptsLeft_eq (h : Step turn move loop next) :
    loop.receiptsLeft = next.receiptsLeft + if move == .receive then 1 else 0 := by
  cases h with
  | receive hreceiving hqueue => simp [receiptsLeft, publish, hreceiving, hqueue]
  | close hreceiving hqueue => simp [receiptsLeft, publish, hreceiving, hqueue]
  | work | join => rfl

theorem Effect.length_eq {pending rest : List (Job ε)} {world world' : ω} {tally tally' : Tally}
    (h : Effect turn move pending world tally rest world' tally') :
    pending.length = rest.length + if move.joins then 1 else 0 := by
  cases h with
  | receive => rfl
  | work => rw [List.length_append, List.length_append]; rfl
  | join => rw [List.length_append, List.length_append]; rfl

theorem Step.joinsLeft_eq (h : Step turn move loop next) :
    loop.joinsLeft = next.joinsLeft + if move.joins then 1 else 0 :=
  h.effect.length_eq

/-- Every receipt of a run was left to do before it. -/
theorem Steps.receiptsLeft_eq (h : Steps turn moves loop last) :
    loop.receiptsLeft = last.receiptsLeft + moves.count .receive := by
  induction h with
  | nil => rfl
  | cons hstep _ ih => rw [hstep.receiptsLeft_eq, ih, List.count_cons, Nat.add_assoc]

/-- Every joining of a run was left to do before it. -/
theorem Steps.joinsLeft_eq (h : Steps turn moves loop last) :
    loop.joinsLeft = last.joinsLeft + moves.countP Move.joins := by
  induction h with
  | nil => rfl
  | cons hstep _ ih => rw [hstep.joinsLeft_eq, ih, List.countP_cons, Nat.add_assoc]

theorem Effect.events_add_length {pending rest : List (Job ε)} {world world' : ω}
    {tally tally' : Tally} (h : Effect turn move pending world tally rest world' tally') :
    tally'.events + rest.length = tally.events + pending.length := by
  have hlength := h.length_eq
  cases h with
  | receive => rfl
  | work => exact congrArg _ hlength.symm
  | join => rw [Tally.events_record, hlength, Nat.add_right_comm]; rfl

/-- Every joined job is counted in the tally. -/
theorem Steps.events_add_joinsLeft (h : Steps turn moves loop last) :
    last.tally.events + last.joinsLeft = loop.tally.events + loop.joinsLeft := by
  induction h with
  | nil => rfl
  | cons hstep _ ih => exact ih.trans hstep.effect.events_add_length

/-- A turn of a job leaves less to do, as long as the world is of a kind that turns keep. -/
structure Progresses (turn : ε → ω → Job ε × ω) (size : ε → Nat) (Kept : ω → Prop) : Prop where
  kept : ∀ event world, Kept world → Kept (turn event world).2
  turns_lt : ∀ event world, Kept world → (turn event world).1.turns size < size event

variable {size : ε → Nat} {Kept : ω → Prop}

theorem Step.kept (hturn : Progresses turn size Kept) (h : Step turn move loop next)
    (hworld : Kept loop.world) : Kept next.world := by
  cases h with
  | receive | close | join => exact hworld
  | work => exact hturn.kept _ _ hworld

theorem Effect.sum_turns_add_le (hturn : Progresses turn size Kept) {pending rest : List (Job ε)}
    {world world' : ω} {tally tally' : Tally}
    (h : Effect turn move pending world tally rest world' tally') (hworld : Kept world) :
    (rest.map (Job.turns size)).sum + (if move.publishes then 0 else 1) ≤
      (pending.map (Job.turns size)).sum := by
  cases h with
  | receive => exact Nat.le_refl _
  | @work job before event after =>
    have hlt : (turn event world).1.turns size < (Job.waiting event).turns size :=
      hturn.turns_lt event world hworld
    simp only [List.map_append, List.map_cons, List.sum_append, List.sum_cons, Move.publishes,
      Bool.false_eq_true, if_false]
    omega
  | join => simp [Move.publishes, Job.turns]

/-- Every move of a run takes something off what is left to do. -/
theorem Steps.length_add_left_le (hturn : Progresses turn size Kept)
    (h : Steps turn moves loop last) (hworld : Kept loop.world) :
    moves.length + (last.receiptsLeft + last.joinsLeft + last.workLeft size) ≤
      loop.receiptsLeft + loop.joinsLeft + loop.workLeft size := by
  induction h with
  | nil => exact Nat.le_of_eq (Nat.zero_add _)
  | @cons move moves loop next last hstep _ ih =>
    -- A move takes one off the receipts, the joinings or the turns, and nothing is put back.
    have hrest := ih (hstep.kept hturn hworld)
    have hreceipts := hstep.receiptsLeft_eq
    have hjoins := hstep.joinsLeft_eq
    have hwork := hstep.effect.sum_turns_add_le hturn hworld
    simp only [workLeft, List.length_cons] at hrest hwork ⊢
    cases move <;> simp [Move.publishes, Move.joins] at hreceipts hjoins hwork <;> omega

/-! ### The end of a run -/

/-- A loop is over when no move is possible: then it has nothing to wait for and stops. -/
theorem isOver_iff_not_step : loop.IsOver ↔ ∀ move next, ¬ Step turn move loop next := by
  constructor
  · rintro ⟨hreceiving, hjobs⟩ move next hstep
    cases hstep with
    | receive h _ => exact absurd (hreceiving.symm.trans h) nofun
    | close h _ => exact absurd (hreceiving.symm.trans h) nofun
    | work h => rw [hjobs] at h; cases h
    | join h => rw [hjobs] at h; cases h
  · intro hstuck
    -- While it receives, it can receive an event or the end of the channel.
    have hreceiving : loop.receiving = false := by
      by_contra hne
      have hreceiving := Bool.of_not_eq_false hne
      cases hqueue : loop.queue with
      | nil => exact hstuck _ _ (.close hreceiving hqueue)
      | cons event rest => exact hstuck _ _ (.receive hreceiving hqueue)
    refine ⟨hreceiving, ?_⟩
    -- Of any job there is a move: to take a turn, or to be joined.
    cases hjobs : loop.jobs with
    | nil => rfl
    | cons job rest =>
      have hjob : loop.jobs[0]? = some job := by rw [hjobs]; rfl
      cases job with
      | waiting event => exact absurd (.work hjob) (hstuck (.work 0) _)
      | done outcome => exact absurd (.join hjob) (hstuck (.join 0) _)

theorem Sound.pending_eq_nil (hloop : loop.Sound) (hover : loop.IsOver) : loop.pending = [] := by
  rw [pending, hover.2, hloop.queue_eq_nil hover.1]
  rfl

/-- A loop is over when nothing is left to be received or joined. -/
theorem Sound.isOver_iff (hloop : loop.Sound) :
    loop.IsOver ↔ loop.receiptsLeft + loop.joinsLeft = 0 := by
  constructor
  · intro hover
    rw [receiptsLeft, joinsLeft, hloop.pending_eq_nil hover, hloop.queue_eq_nil hover.1, hover.1]
    rfl
  · intro hleft
    obtain ⟨hreceipts, hjoins⟩ := Nat.add_eq_zero_iff.mp hleft
    have hreceiving : loop.receiving = false := by
      by_contra hne
      rw [receiptsLeft, if_pos (Bool.of_not_eq_false hne)] at hreceipts
      exact absurd hreceipts (Nat.succ_ne_zero _)
    exact ⟨hreceiving, (List.append_eq_nil_iff.mp (List.length_eq_zero_iff.mp hjoins)).1⟩

end Loop

end ConfigDiagnostics
