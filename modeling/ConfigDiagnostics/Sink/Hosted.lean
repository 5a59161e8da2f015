import ConfigDiagnostics.Sink.Guarded
import ConfigDiagnostics.Sink.Mailbox

/-!
# Any of the sinks

## Main definitions

* `Hosted`: a sink of one of the kinds that come with the library
* `Hosted.report`: the sink
* `Hosted.collecting?`, `Hosted.take`: what the sink holds, and taking it out
-/

namespace ConfigDiagnostics

/-- A sink of one of the kinds that come with the library. -/
inductive Hosted where
  | collecting (sink : Collecting)
  | guarded (sink : Guarded)
  | mailbox (sink : Mailbox)
  deriving DecidableEq, Repr

namespace Hosted

/-- Answers as the sink of its kind does. -/
def report : Sink Hosted
  | collecting sink, diagnostic =>
    let (reply, sink) := Collecting.report sink diagnostic
    (reply, collecting sink)
  | guarded sink, diagnostic =>
    let (reply, sink) := Guarded.report sink diagnostic
    (reply, guarded sink)
  | mailbox sink, diagnostic =>
    let (reply, sink) := Mailbox.report sink diagnostic
    (reply, mailbox sink)

/-- The collecting sink that this one is, or has behind its guard. -/
def collecting? : Hosted → Option Collecting
  | collecting sink => some sink
  | guarded sink => some sink.inner
  | mailbox _ => none

/-- Takes out all that a collecting sink holds. -/
def take : Hosted → List Diagnostic × Hosted
  | collecting sink =>
    let (held, sink) := sink.take
    (held, collecting sink)
  | guarded sink =>
    let (held, inner) := sink.inner.take
    (held, guarded { sink with inner })
  | mailbox sink => ([], mailbox sink)

/-- Takes out all that waits in a mailbox. -/
def receive : Hosted → List Diagnostic × Hosted
  | mailbox sink =>
    let (waiting, sink) := sink.receive
    (waiting, mailbox sink)
  | other => ([], other)

/-- Closes a mailbox. -/
def close : Hosted → Hosted
  | mailbox sink => mailbox sink.close
  | other => other

end Hosted

end ConfigDiagnostics
