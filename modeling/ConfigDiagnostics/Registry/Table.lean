import ConfigDiagnostics.Registry

/-!
# Tables of rules under keys

A registry may be kept as a table that has each rule under a key, in the order in which the keys
were first bound. Nothing in a table as such makes the key the topic of the rule, or keeps a rule
from being put in the place of another; only the way in which rules are registered does.

Tables have addresses, and a holder refers to a table by its address. A copy of a holder refers to
the same address, so what is registered by one of them is seen by all.

## Main definitions

* `RuleTable`: rules under keys
* `RuleTable.insert`, `RuleTable.register`: binding a key, and adding a rule under its topic
* `RuleTable.toRegistry`: the registry that a table is kept for
* `registerAt`, `registerAll`: a rule registered by a holder, and rules one after another
* `offeredWith`: the rules that a holder and its copies offered
-/

namespace ConfigDiagnostics

/-- Rules under keys, in the order in which the keys were first bound. -/
structure RuleTable (ι : Type) where
  entries : List (String × Rule ι) := []
  deriving DecidableEq, Repr

namespace RuleTable

variable {ι : Type}

/-- The keys, in order. -/
def keys (table : RuleTable ι) : List String :=
  table.entries.map Prod.fst

/-- The number of keys. -/
def size (table : RuleTable ι) : Nat :=
  table.entries.length

/-- The rule under a key. -/
def get? (table : RuleTable ι) (key : String) : Option (Rule ι) :=
  table.entries.lookup key

/-- Entries with a rule put in the place of the one under its key, or at the end. -/
def bind (key : String) (rule : Rule ι) : List (String × Rule ι) → List (String × Rule ι)
  | [] => [(key, rule)]
  | (k, r) :: rest => if k = key then (key, rule) :: rest else (k, r) :: bind key rule rest

/-- Binds a key to a rule. -/
def insert (table : RuleTable ι) (key : String) (rule : Rule ι) : RuleTable ι :=
  ⟨bind key rule table.entries⟩

/-- Adds a rule under its topic, unless there is one under it already. -/
def register (table : RuleTable ι) (rule : Rule ι) : Except RegistryError Unit × RuleTable ι :=
  if rule.dialect.topic ∈ table.keys then (.error (.duplicateTopic rule.dialect.topic), table)
  else (.ok (), table.insert rule.dialect.topic rule)

/-- The rules of a table, as a registry. -/
def toRegistry (table : RuleTable ι) : Registry ι :=
  ⟨table.entries.map Prod.snd⟩

end RuleTable

section

variable {ι κ α : Type} [DecidableEq α] (refersTo : κ → α)

/-- Registers a rule by a holder, in the table that it refers to. -/
def registerAt (tables : α → RuleTable ι) (holder : κ) (rule : Rule ι) :
    Except RegistryError Unit × (α → RuleTable ι) :=
  let (reply, table) := (tables (refersTo holder)).register rule
  (reply, setState tables (refersTo holder) table)

/-- The tables after rules were registered one after another, each by some holder. At first all
tables are empty. -/
def registerAll (calls : List (κ × Rule ι)) : α → RuleTable ι :=
  calls.foldl (fun tables call => (registerAt refersTo tables call.1 call.2).2) fun _ => {}

/-- The rules that a holder and its copies offered, among the calls of all holders. -/
def offeredWith (holder : κ) (calls : List (κ × Rule ι)) : List (Rule ι) :=
  (calls.filter fun call => refersTo call.1 = refersTo holder).map Prod.snd

end

end ConfigDiagnostics
