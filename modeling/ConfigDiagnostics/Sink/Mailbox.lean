import ConfigDiagnostics.Sink.Basic

/-!
# The mailbox sink

Diagnostics wait in a mailbox, first come first served, until they are received. A mailbox that is
closed takes no more, but what waits in it can still be received.

## Main definitions

* `Mailbox`: the diagnostics that wait, and whether more are taken
* `Mailbox.report`: the sink
* `Mailbox.receive`, `Mailbox.close`: taking out all that waits, and closing
-/

namespace ConfigDiagnostics

/-- The diagnostics that wait to be received, and whether more are taken. -/
structure Mailbox where
  waiting : List Diagnostic := []
  isOpen : Bool := true
  deriving DecidableEq, Repr

namespace Mailbox

/-- Puts a diagnostic last in an open mailbox. -/
def report : Sink Mailbox := fun mailbox diagnostic =>
  if mailbox.isOpen then
    (.accepted, { mailbox with waiting := mailbox.waiting ++ [diagnostic] })
  else (.refused .closed, mailbox)

theorem report_of_isOpen {mailbox : Mailbox} (h : mailbox.isOpen) (diagnostic : Diagnostic) :
    report mailbox diagnostic =
      (.accepted, { mailbox with waiting := mailbox.waiting ++ [diagnostic] }) := by
  simp [report, h]

theorem report_of_closed {mailbox : Mailbox} (h : mailbox.isOpen = false)
    (diagnostic : Diagnostic) : report mailbox diagnostic = (.refused .closed, mailbox) := by
  simp [report, h]

/-- Takes out all that waits. -/
def receive (mailbox : Mailbox) : List Diagnostic × Mailbox :=
  (mailbox.waiting, { mailbox with waiting := [] })

/-- Takes no more diagnostics. -/
def close (mailbox : Mailbox) : Mailbox :=
  { mailbox with isOpen := false }

end Mailbox

end ConfigDiagnostics
