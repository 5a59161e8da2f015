import ConfigDiagnostics.Engine.Loop
import ConfigDiagnostics.Settings

/-!
# The engine

An engine has settings and a registry; it takes events from a bounded channel and has each handed
to the rule of its topic. Its progress can be looked at during a run and after it.

## Main definitions

* `Engine`: settings, and the progress of the last run
* `Engine.channelLimit`, `Engine.CanOpen`: what capacities a channel may have
* `Engine.run?`: a run over events
* `Run`: what a run shows
-/

namespace ConfigDiagnostics

/-- Settings, and how far the last run has come. -/
structure Engine where
  settings : Settings
  progress : Progress := {}
  deriving DecidableEq, Repr

/-- What a run shows: the progress when all events have ended and the channel is still open, the
tally with which the run ends, and the progress after it. -/
structure Run where
  beforeClosing : Progress
  tally : Tally
  afterClosing : Progress
  deriving DecidableEq, Repr

namespace Engine

/-- A channel has room for no more events than this, one less than `2 ^ 61`. -/
def channelLimit : Nat := 2305843009213693951

/-- A channel with the capacity can be made: it has room for one event, and not for too many. -/
def CanOpen (capacity : Nat) : Prop :=
  0 < capacity ∧ capacity ≤ channelLimit

instance (capacity : Nat) : Decidable (CanOpen capacity) :=
  inferInstanceAs (Decidable (_ ∧ _))

variable {ι σ : Type} [DecidableEq ι]

/-- Runs over events, each of which is dealt with before the next is received. None, if the channel
cannot be made; the engine and the sinks are then as before. -/
def run? (engine : Engine) (sink : Sink σ) (registry : Registry ι) (events : List Announcement)
    (states : ι → σ) : Option (Run × Engine × (ι → σ)) :=
  if CanOpen engine.settings.capacity then
    let turn := Job.atOnce (Registry.route sink registry)
    let idle := (Loop.start events states).follow turn (Loop.inTurn events.length)
    -- All events are dealt with before the end of the channel is received.
    let ended := idle.follow turn [.receive]
    let run := {
      beforeClosing := idle.published
      tally := ended.tally
      afterClosing := ended.published }
    some (run, { engine with progress := ended.published }, ended.world)
  else none

end Engine

end ConfigDiagnostics
