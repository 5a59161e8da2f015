import ConfigDiagnostics.Alternatives
import ConfigDiagnostics.EventName
import ConfigDiagnostics.Grouping

/-!
# Dialects

A dialect is one format of configuration files. Dialects differ in the topic of their events, in
the templates of their sentences, and in whether failed alternatives are combined.

## Main definitions

* `Dialect`: a topic, a table of templates, and whether alternatives are combined
* `Dialect.babel`, `Dialect.typescript`: the two dialects that come with the library
* `Dialect.sentences`: what a dialect says about violations, group by group
-/

namespace ConfigDiagnostics

/-- What distinguishes one format of configuration files from another. -/
structure Dialect where
  topic : String
  templates : TemplateTable := []
  combinesAlternatives : Bool := false
  deriving DecidableEq, Repr

namespace Dialect

/-- The format of babel configuration files. -/
def babel : Dialect where
  topic := "babel-config"
  templates := [.additionalProperties, .enum, .type]

/-- The format of typescript configuration files, whose failed alternatives are combined. -/
def typescript : Dialect where
  topic := "typescript-config"
  templates := [.additionalProperties, .enum, .pattern]
  combinesAlternatives := true

/-- Replaces the templates. -/
def withTemplates (dialect : Dialect) (templates : TemplateTable) : Dialect :=
  { dialect with templates }

/-- Adds a template, to be tried last. -/
def withTemplate (dialect : Dialect) (template : Template) : Dialect :=
  { dialect with templates := dialect.templates ++ [template] }

/-- Sets whether alternatives are combined. -/
def withAlternatives (dialect : Dialect) (combined : Bool) : Dialect :=
  { dialect with combinesAlternatives := combined }

/-- The name of the dialect's event of a kind. -/
def eventName (dialect : Dialect) (kind : EventKind) : EventName :=
  ⟨dialect.topic, kind⟩

/-- What the dialect says about the violation at a position of the whole list. -/
def sentenceAt (dialect : Dialect) (violations : List Violation) (position : Nat) : String :=
  Alternatives.textAt dialect.templates dialect.combinesAlternatives violations position

/-- What the dialect says about violations: for each group, in order, the sentence of each of its
violations. -/
def sentences (dialect : Dialect) (violations : List Violation) : List (List String) :=
  (Group.ofViolations violations).map fun group =>
    group.entries.map fun entry => dialect.sentenceAt violations entry.1

end Dialect

end ConfigDiagnostics
