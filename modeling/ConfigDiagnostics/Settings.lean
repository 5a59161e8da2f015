import ConfigDiagnostics.Json.Reader
import ConfigDiagnostics.Shape.Record
import ConfigDiagnostics.Shape.Scalar

/-!
# Settings of an engine

A host sets up an engine by a small JSON document: how many events may wait, and options for each
rule. Rules have no options, so a document may only name them. Three things can be wrong with a
document; they are looked for one after another, and the first is the error.

## Main definitions

* `Settings`: settings that an engine can use
* `Settings.checkOptions`: the options of a rule are none
* `Settings.ofJson`, `Settings.ofText`: settings from a document
* `SettingsError`, `SettingsError.message`: what is wrong with a document
-/

namespace ConfigDiagnostics

/-- How many events may wait where a document does not say. -/
def defaultCapacity : Nat := 64

/-- How many events may wait, at least one, and the topics of the rules that were named. -/
structure Settings where
  capacity : Nat := defaultCapacity
  rules : List String := []
  capacity_pos : 0 < capacity := by decide
  deriving DecidableEq, Repr

/-- What is wrong with a document of settings. -/
inductive SettingsError where
  | malformedText (error : Json.MalformedText)
  | mismatch (mismatch : Mismatch)
  | noCapacity
  | options (rule : String) (mismatch : Mismatch)
  deriving Repr

namespace SettingsError

/-- The wording of an error in a document that is not of the right form. -/
def formMessage (cause : String) : String :=
  "invalid engine configuration: " ++ cause

/-- The wording of an error. -/
def message : SettingsError → String
  | malformedText error => formMessage error.message
  | mismatch cause => formMessage cause.message
  | noCapacity => "channel capacity must be at least 1"
  | options rule cause => "rule '" ++ rule ++ "' accepts no options: " ++ cause.message

end SettingsError

namespace Settings

/-- The fields of a rule's options: there are none, and no other members are accepted. -/
def optionsRecord : Record Unit where
  title := "RuleOptions"
  fields := .nil
  closed := true

/-- Checks that a rule is given no options: nothing at all or a record without fields. -/
def checkOptions : Json → Except Mismatch Unit
  | .null => .ok ()
  | options => optionsRecord.decode options

/-- The fields of a document of settings. -/
def record : Record (Nat × Json.Members × Unit) where
  title := "RawEngineConfig"
  fields :=
    .cons { name := "channelCapacity", read := Shape.readCount,
            fallback := some defaultCapacity } <|
    .cons { name := "rules", read := Shape.readMap, fallback := some [] } <|
    .nil
  closed := true

/-- Checks the options of rules one after another; the first that are refused are the error. -/
def checkRules : Json.Members → Except SettingsError Unit
  | [] => .ok ()
  | (rule, options) :: rest =>
    match checkOptions options with
    | .error mismatch => .error (.options rule mismatch)
    | .ok () => checkRules rest

/-- Settings from a document: its form is checked first, then its capacity, then its rules. -/
def ofJson (document : Json) : Except SettingsError Settings :=
  match record.decode document with
  | .error mismatch => .error (.mismatch mismatch)
  | .ok (capacity, rules, _) =>
    if capacity_pos : 0 < capacity then
      match checkRules rules with
      | .error error => .error error
      | .ok () => .ok { capacity, rules := Json.keys rules, capacity_pos }
    else .error .noCapacity

/-- Settings from the text of a document. -/
def ofText (text : String) : Except SettingsError Settings :=
  match Json.read text with
  | .error error => .error (.malformedText error)
  | .ok document => ofJson document

end Settings

end ConfigDiagnostics
