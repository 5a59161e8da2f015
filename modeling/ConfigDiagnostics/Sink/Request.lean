import ConfigDiagnostics.Sink.Collecting

/-!
# Requests to a collecting sink

A host reports to a collecting sink, looks at what it holds and takes that out, in any order. Each
request is dealt with before the next.

## Main definitions

* `Collecting.Request`, `Collecting.Response`: what is asked of a sink, and what it gives
* `Collecting.respond`: one request
* `Collecting.serve`: requests one after another
-/

namespace ConfigDiagnostics.Collecting

/-- What is asked of a collecting sink. -/
inductive Request where
  | report (diagnostic : Diagnostic)
  | take
  | diagnostics
  | forResource (resource : String)
  | size
  | isEmpty
  deriving DecidableEq, Repr

/-- What a collecting sink gives. -/
inductive Response where
  | reply (reply : Reply)
  | diagnostics (given : List Diagnostic)
  | count (count : Nat)
  | truth (value : Bool)
  deriving DecidableEq, Repr

/-- A request, and what was given for it. -/
abbrev Exchange := Request × Response

/-- Deals with a request. -/
def respond (sink : Collecting) : Request → Response × Collecting
  | .report diagnostic =>
    let (reply, sink) := report sink diagnostic
    (.reply reply, sink)
  | .take =>
    let (taken, sink) := sink.take
    (.diagnostics taken, sink)
  | .diagnostics => (.diagnostics sink.held, sink)
  | .forResource resource => (.diagnostics (sink.forResource resource), sink)
  | .size => (.count sink.size, sink)
  | .isEmpty => (.truth sink.isEmpty, sink)

/-- Deals with requests one after another. -/
def serve : Collecting → List Request → List Exchange × Collecting
  | sink, [] => ([], sink)
  | sink, request :: rest =>
    let (response, sink) := sink.respond request
    let (exchanges, sink) := sink.serve rest
    ((request, response) :: exchanges, sink)

end ConfigDiagnostics.Collecting
