/-!
# Refusals of a sink

A sink may refuse a diagnostic. Sending the diagnostics of one event may meet several refusals,
which are all kept in their order; where there is no refusal there is no such collection.

## Main definitions

* `Refusal`, `Refusal.message`: why a sink refused a diagnostic
* `Refusals`: one refusal or more
* `Refusals.ofList?`, `Refusals.toList`: from a list, and back
* `Refusals.append`: the refusals of one collection, then those of another
* `Refusals.message`: the wording, with one numbered line for each

## Main results

* `Refusals.toList_append`: appending appends the lists
* `Refusals.ofList?_toList`: the list of a collection makes it again
-/

namespace ConfigDiagnostics

/-- Why a sink refused a diagnostic. -/
inductive Refusal where
  /-- The sink did not want this diagnostic. -/
  | rejected (resource reason : String)
  /-- The sink takes no diagnostics any more. -/
  | closed
  deriving DecidableEq, Repr

/-- The wording of a refusal. -/
def Refusal.message : Refusal → String
  | rejected resource reason => "sink rejected diagnostic for '" ++ resource ++ "': " ++ reason
  | closed => "reporting sink is closed"

/-- One refusal or more. -/
structure Refusals where
  first : Refusal
  others : List Refusal
  deriving DecidableEq, Repr

namespace Refusals

/-- A single refusal. -/
def single (refusal : Refusal) : Refusals :=
  ⟨refusal, []⟩

/-- The refusals in order. -/
def toList (refusals : Refusals) : List Refusal :=
  refusals.first :: refusals.others

/-- The refusals of a list, if it has any. -/
def ofList? : List Refusal → Option Refusals
  | [] => none
  | first :: others => some ⟨first, others⟩

/-- The number of refusals. -/
def size (refusals : Refusals) : Nat :=
  refusals.others.length + 1

/-- The refusals of one collection, then those of another. -/
def append (earlier later : Refusals) : Refusals :=
  ⟨earlier.first, earlier.others ++ later.toList⟩

instance : Append Refusals :=
  ⟨append⟩

@[simp] theorem toList_single (refusal : Refusal) : (single refusal).toList = [refusal] := rfl

@[simp] theorem toList_append (earlier later : Refusals) :
    (earlier ++ later).toList = earlier.toList ++ later.toList := rfl

@[simp] theorem length_toList (refusals : Refusals) : refusals.toList.length = refusals.size := rfl

theorem ext_toList {refusals others : Refusals} (h : refusals.toList = others.toList) :
    refusals = others := by
  have heq := List.cons.inj h
  cases refusals
  cases others
  rw [mk.injEq]
  exact heq

@[simp] theorem ofList?_toList (refusals : Refusals) : ofList? refusals.toList = some refusals :=
  rfl

/-- The numbered lines for refusals, the first of which has the given number. -/
def lines (number : Nat) : List Refusal → String
  | [] => ""
  | refusal :: rest =>
    "  " ++ toString number ++ ". " ++ refusal.message ++ "\n" ++ lines (number + 1) rest

/-- The wording of a collection: how many refusals there are, then each on its own line. -/
def message (refusals : Refusals) : String :=
  "Reporting failed with " ++ toString refusals.size ++ " error(s):\n" ++ lines 1 refusals.toList

end Refusals

end ConfigDiagnostics
