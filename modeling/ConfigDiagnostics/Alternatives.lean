import ConfigDiagnostics.Template

/-!
# Failed alternatives

An `anyOf` violation says that none of several alternatives matched. A dialect may have it say
instead what every other violation of the resource says, joined by "or". The other violations are
those of the whole resource, wherever they are, and one that is itself an `anyOf` counts with its
own sentence.

## Main definitions

* `Alternatives.others`: the violations at other positions
* `Alternatives.sentence`: what the others say
* `Alternatives.textAt`: what the violation at a position says, in a dialect that combines
  alternatives or does not
-/

namespace ConfigDiagnostics.Alternatives

/-- The violations at positions other than the given one. -/
def others (violations : List Violation) (position : Nat) : List Violation :=
  (violations.zipIdx.filter fun entry => entry.2 ≠ position).map Prod.fst

/-- What the violations at other positions say, joined by "or". Where there are none, the violation
at the position keeps its own message, because an empty sentence says nothing. -/
def sentence (table : TemplateTable) (violations : List Violation) (position : Nat) : String :=
  match others violations position with
  | [] => (violations[position]?.map Violation.message).getD ""
  | siblings => " or ".intercalate (siblings.map table.sentence)

/-- What the violation at a position of the whole list says: an `anyOf` violation what the others
say, where alternatives are combined, and any other the sentence of the table. There is nothing to
say at a position outside the list. -/
def textAt (table : TemplateTable) (combined : Bool) (violations : List Violation)
    (position : Nat) : String :=
  match violations[position]? with
  | none => ""
  | some violation =>
    if combined ∧ violation.keyword = .anyOf then sentence table violations position
    else table.sentence violation

end ConfigDiagnostics.Alternatives
