/-!
# Event names

The parser announces two outcomes for a resource of a dialect: the text is not JSON, or it is but
breaks the schema. An event's name has the dialect's topic and one of the two kinds. A topic is any
text on one line; it may itself read like an event name, as the kind is what comes last.

## Main definitions

* `EventKind`, `EventName`: the kind of an event, and its whole name
* `EventName.text`: the spelling of a name
* `EventName.ofText?`: the name that a text spells
* `EventName.IsTopic`: the topics that a name can be read back with
-/

namespace ConfigDiagnostics

/-- What the parser found wrong. -/
inductive EventKind where
  /-- The text is not JSON. -/
  | json
  /-- The text is JSON that breaks the schema. -/
  | schema
  deriving DecidableEq, Repr

/-- The word for a kind in event names. -/
def EventKind.word : EventKind → String
  | json => "json"
  | schema => "schema"

/-- The name of an event: the topic of a dialect and a kind. -/
structure EventName where
  topic : String
  kind : EventKind
  deriving DecidableEq, Repr

namespace EventName

/-- What follows the topic in a name of the kind. -/
def ending (kind : EventKind) : String :=
  "::error::" ++ kind.word

/-- The spelling of a name. -/
def text (name : EventName) : String :=
  name.topic ++ ending name.kind

/-- The characters can be a topic: there are some, on one line. -/
def IsTopic (topic : List Char) : Prop :=
  topic ≠ [] ∧ '\n' ∉ topic

instance (topic : List Char) : Decidable (IsTopic topic) :=
  inferInstanceAs (Decidable (_ ∧ _))

/-- The topic of a text that spells a name of the kind. -/
def topic? (kind : EventKind) (chars : List Char) : Option (List Char) :=
  let ending := (ending kind).toList
  if ending <:+ chars then
    let topic := chars.take (chars.length - ending.length)
    if IsTopic topic then some topic else none
  else none

/-- The name that a text spells. -/
def ofText? (text : String) : Option EventName :=
  match topic? .json text.toList with
  | some topic => some ⟨String.ofList topic, .json⟩
  | none =>
    match topic? .schema text.toList with
    | some topic => some ⟨String.ofList topic, .schema⟩
    | none => none

end EventName

end ConfigDiagnostics
