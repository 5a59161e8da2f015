import ConfigDiagnostics.Shape.Mismatch

/-!
# Reading single values

## Main definitions

* `Shape.readText`, `Shape.readCount`, `Shape.readAny`: a text, a count, any value
* `Shape.readList`, `Shape.readMap`: a list of items that are read alike, a map of any values
-/

namespace ConfigDiagnostics.Shape

/-- A string. -/
def readText : Json → Except Mismatch String
  | .string value => .ok value
  | other => .error (.wrongType other .text)

@[simp] theorem readText_eq_ok_iff {value : Json} {text : String} :
    readText value = .ok text ↔ value = .string text := by
  cases value <;> simp [readText]

/-- Any value, as it is. -/
def readAny (value : Json) : Except Mismatch Json :=
  .ok value

/-- An integer that is not negative. -/
def readCount : Json → Except Mismatch Nat
  | .integer integer =>
    if integer.value < 0 then .error (.negativeCount integer) else .ok integer.value.toNat
  | other => .error (.wrongType other .count)

@[simp] theorem readCount_eq_ok_iff {value : Json} {count : Nat} :
    readCount value = .ok count ↔
      ∃ integer : Json.Integer, value = .integer integer ∧ integer.value = count := by
  cases value with
  | integer integer =>
    rw [readCount]
    split
    · simp
      omega
    · simp
      omega
  | _ => simp [readCount]

/-- An array, each of whose items is read; the first that cannot be is what is wrong. -/
def readList {α : Type} (readItem : Json → Except Mismatch α) : Json → Except Mismatch (List α)
  | .array items => items.mapM readItem
  | other => .error (.wrongType other .list)

/-- An object, by its members. -/
def readMap : Json → Except Mismatch Json.Members
  | .object members => .ok members
  | other => .error (.wrongType other .map)

@[simp] theorem readMap_eq_ok_iff {value : Json} {members : Json.Members} :
    readMap value = .ok members ↔ value = .object members := by
  cases value <;> simp [readMap]

end ConfigDiagnostics.Shape
