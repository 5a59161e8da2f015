import ConfigDiagnostics.Sink.Mailbox

/-!
# A mailbox and its receiver

A receiver takes diagnostics out of a mailbox one by one, whenever it gets to work. It may do so
between any two reports, so how often it does before each of them is part of the state here.

## Main definitions

* `Mailbox.receiveFirst`: taking out what has waited longest
* `Attended`: a mailbox, what was received from it, and when the receiver is at work
* `Attended.report`: the sink
* `Attended.drain`: receiving all that still waits
-/

namespace ConfigDiagnostics

/-- Takes out what has waited longest, if anything waits. -/
def Mailbox.receiveFirst (mailbox : Mailbox) : Option Diagnostic × Mailbox :=
  match mailbox.waiting with
  | [] => (none, mailbox)
  | first :: rest => (some first, { mailbox with waiting := rest })

/-- A mailbox, what was received from it, in order, and how often the receiver tries to receive
before each of the reports to come. -/
structure Attended where
  mailbox : Mailbox := {}
  received : List Diagnostic := []
  receipts : List Nat := []
  deriving DecidableEq, Repr

namespace Attended

/-- Tries to receive once. -/
def receive (attended : Attended) : Attended :=
  match attended.mailbox.receiveFirst with
  | (some first, mailbox) => { attended with mailbox, received := attended.received ++ [first] }
  | (none, _) => attended

/-- Tries to receive so many times. -/
def receiveTimes (attended : Attended) : Nat → Attended
  | 0 => attended
  | times + 1 => attended.receive.receiveTimes times

/-- The receiver is at work before a report. -/
def attend (attended : Attended) : Attended :=
  match attended.receipts with
  | [] => attended
  | times :: receipts => { attended with receipts }.receiveTimes times

/-- Puts a diagnostic last in the mailbox, after the receiver was at work. -/
def report : Sink Attended := fun attended diagnostic =>
  let attended := attended.attend
  let (reply, mailbox) := Mailbox.report attended.mailbox diagnostic
  (reply, { attended with mailbox })

/-- Receives all that still waits. -/
def drain (attended : Attended) : Attended :=
  attended.receiveTimes attended.mailbox.waiting.length

end Attended

end ConfigDiagnostics
