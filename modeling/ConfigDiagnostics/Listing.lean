import ConfigDiagnostics.Registry
import ConfigDiagnostics.Text.Quoted

/-!
# Listings of rules

For inspection a rule and a registry can be written out by their parts. The sink of a rule is not
shown.

## Main definitions

* `Dialect.listing`, `Rule.listing`, `Registry.listing`: a dialect, a rule, a registry written out
-/

namespace ConfigDiagnostics

namespace Listing

/-- Items between brackets. -/
def items (texts : List String) : String :=
  "[" ++ ", ".intercalate texts ++ "]"

/-- A named part. -/
def part (name text : String) : String :=
  name ++ ": " ++ text

/-- A named whole, with its parts between braces. -/
def whole (name : String) (parts : List String) : String :=
  name ++ " \x7b " ++ ", ".intercalate parts ++ " \x7d"

end Listing

open Listing

/-- A dialect written out. -/
def Dialect.listing (dialect : Dialect) : String :=
  whole "DialectConfig" [
    part "event_prefix" (Text.quoted dialect.topic),
    part "chain" (whole "FormatterChain" [
      part "templates" (items (dialect.templates.map Template.label))]),
    part "supports_disjunction" (if dialect.combinesAlternatives then "true" else "false")]

/-- A rule written out; the dots stand for its sink. -/
def Rule.listing {ι : Type} (rule : Rule ι) : String :=
  whole "DialectRule" [part "dialect" rule.dialect.listing, ".."]

/-- A registry written out, by the topics of its rules. -/
def Registry.listing {ι : Type} (registry : Registry ι) : String :=
  whole "RuleRegistry" [part "prefixes" (items (registry.topics.map Text.quoted))]

end ConfigDiagnostics
