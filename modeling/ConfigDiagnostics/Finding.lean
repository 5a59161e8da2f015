import ConfigDiagnostics.EventName
import ConfigDiagnostics.Violation.Wire

/-!
# Findings about a resource

An event comes in as a name and a payload. What the payload has to hold follows from the kind in
the name: the message of a parser, or the violations of a schema.

## Main definitions

* `Finding`: what was found wrong with a resource
* `Finding.ofPayload`: a finding from a payload of a kind
* `Announcement`: an event as it comes in
* `EventError`, `EventError.message`: why an event has no finding
* `Finding.ofEvent`: the finding of an event with a known name
-/

namespace ConfigDiagnostics

/-- What was found wrong with a resource. -/
inductive Finding where
  /-- The text is not JSON, in the words of the parser. -/
  | malformed (resource message : String)
  /-- The schema is violated, in the order of the validator. -/
  | violations (resource : String) (violations : List Violation)
  deriving Repr

namespace Finding

/-- The resource that the finding is about. -/
def resource : Finding → String
  | malformed resource _ => resource
  | violations resource _ => resource

/-- The kind of event that announces the finding. -/
def kind : Finding → EventKind
  | malformed .. => .json
  | violations .. => .schema

/-- The fields of a parser's error. -/
def parserRecord : Record (String × Unit) where
  title := "ParserError"
  fields := .cons { name := "message", read := Shape.readText } .nil

/-- The fields of a payload about a text that is not JSON. -/
def malformedRecord : Record ((String × Unit) × String × Unit) where
  title := "JsonPayload"
  fields :=
    .cons { name := "error", read := parserRecord.decode } <|
    .cons { name := "resource", read := Shape.readText } <|
    .nil

/-- The fields of a payload about a violated schema. -/
def violationsRecord : Record (List Violation × String × Unit) where
  title := "SchemaPayload"
  fields :=
    .cons { name := "errors", read := Shape.readList Violation.ofJson, fallback := some [] } <|
    .cons { name := "resource", read := Shape.readText } <|
    .nil

/-- A finding from the payload of an event of the kind. -/
def ofPayload (kind : EventKind) (payload : Json) : Except Mismatch Finding :=
  match kind with
  | .json =>
    match malformedRecord.decode payload with
    | .ok ((message, _), resource, _) => .ok (malformed resource message)
    | .error mismatch => .error mismatch
  | .schema =>
    match violationsRecord.decode payload with
    | .ok (found, resource, _) => .ok (violations resource found)
    | .error mismatch => .error mismatch

end Finding

/-- An event as it comes in. -/
structure Announcement where
  name : String
  payload : Json
  deriving Repr

/-- Why an event has no finding. -/
inductive EventError where
  /-- The name is none of an event. -/
  | unknownName (name : String)
  /-- The payload is none of the event. -/
  | unfitPayload (event : EventName) (mismatch : Mismatch)
  deriving Repr

/-- The wording of an event error. -/
def EventError.message : EventError → String
  | unknownName name => "unrecognized event name '" ++ name ++ "'"
  | unfitPayload event mismatch =>
    "malformed payload for '" ++ event.text ++ "': " ++ mismatch.message

/-- The finding that an event of a known name announces. -/
def Finding.ofEvent (event : EventName) (payload : Json) : Except EventError Finding :=
  (Finding.ofPayload event.kind payload).mapError (.unfitPayload event)

/-- The event that a name names. -/
def EventName.ofName (name : String) : Except EventError EventName :=
  match EventName.ofText? name with
  | some event => .ok event
  | none => .error (.unknownName name)

end ConfigDiagnostics
