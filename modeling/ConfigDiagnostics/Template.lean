import ConfigDiagnostics.Violation

/-!
# Sentence templates

A template turns the violations of one keyword into sentences. A dialect has a table of templates;
the first that applies writes the sentence, and where none does the validator's own message
stands.

## Main definitions

* `Template`, `Template.keyword`: a template and the keyword it is for
* `Template.sentence?`: the sentence for a violation, if the template applies
* `TemplateTable.covers`: some template of a table is for a keyword
* `TemplateTable.sentence`: the sentence of a table for a violation
-/

namespace ConfigDiagnostics

/-- A template for the violations of one keyword. -/
inductive Template where
  | additionalProperties
  | enum
  | type
  | pattern
  deriving DecidableEq, Repr

/-- A text between apostrophes. -/
def apostrophized (text : String) : String :=
  "'" ++ text ++ "'"

/-- A text with its double quotes made apostrophes. -/
def withoutDoubleQuotes (text : String) : String :=
  text.map fun c => if c = '\x22' then '\x27' else c

namespace Template

/-- The keyword that the template is for. -/
def keyword : Template → Keyword
  | additionalProperties => .additionalProperties
  | enum => .enum
  | type => .type
  | pattern => .pattern

/-- The name of the template. -/
def label : Template → String
  | additionalProperties => "AdditionalProperties"
  | enum => "Enum"
  | type => "Type"
  | pattern => "Pattern"

/-- The template with a name. -/
def ofLabel? (label : String) : Option Template :=
  [additionalProperties, enum, type, pattern].find? fun template => template.label = label

/-- The sentence for a violation whose keyword is the template's own, if it has the parameters
that the sentence needs. -/
def body? (template : Template) (violation : Violation) : Option String :=
  let subject := apostrophized violation.property ++ " "
  match template, violation.params with
  | additionalProperties, .additionalProperty name =>
    some (subject ++ violation.message ++ ". Additional property found " ++
      apostrophized name ++ ".")
  | enum, .allowedValues values =>
    some (subject ++ violation.message ++ " " ++ apostrophized (", ".intercalate values) ++
      ". Value found " ++ apostrophized violation.dataText)
  | type, _ => some (subject ++ withoutDoubleQuotes violation.message ++ ".")
  | pattern, _ =>
    some (subject ++ withoutDoubleQuotes violation.message ++ ". Value found " ++
      apostrophized violation.dataText)
  | _, _ => none

/-- The sentence for a violation. The template applies if the violation has its keyword and the
parameters that the sentence needs. -/
def sentence? (template : Template) (violation : Violation) : Option String :=
  if violation.keyword = template.keyword then template.body? violation else none

end Template

/-- A dialect's templates, in the order in which they are tried. -/
abbrev TemplateTable := List Template

namespace TemplateTable

/-- Some template of the table is for the keyword. -/
def covers (table : TemplateTable) (keyword : Keyword) : Bool :=
  table.any fun template => template.keyword = keyword

/-- The sentence for a violation: of the first template that applies, or else the validator's own
message. -/
def sentence (table : TemplateTable) (violation : Violation) : String :=
  (table.findSome? fun template => template.sentence? violation).getD violation.message

end TemplateTable

end ConfigDiagnostics
