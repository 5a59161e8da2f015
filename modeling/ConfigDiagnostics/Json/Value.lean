import ConfigDiagnostics.Decimal.Binary64

/-!
# JSON values

A JSON value as the rest of the library sees it: an integer is told from a number with a fraction
or an exponent, and an object keeps its members in the order in which their keys were first given.

## Main definitions

* `Json`: a JSON value
* `Json.Integer`: an integer that fits a signed or an unsigned word
* `Json.put`: binding a key in an object's members
* `Json.get?`: the value of a member
* `Json.HasDistinctKeys`, `Json.nesting`: distinct keys in every object, and the depth of brackets

## Main results

* `Json.keys_put`: binding a key adds it at the end, or leaves the keys as they are
-/

namespace ConfigDiagnostics

namespace Json

/-- The least signed word of 64 bits. -/
def leastInteger : Int := -9223372036854775808

/-- The greatest unsigned word of 64 bits. -/
def greatestInteger : Int := 18446744073709551615

/-- An integer that fits a signed or an unsigned word of 64 bits. -/
structure Integer where
  value : Int
  least_le : leastInteger ≤ value
  le_greatest : value ≤ greatestInteger
  deriving DecidableEq, Repr

/-- The integer, if it fits a word. -/
def Integer.ofInt? (value : Int) : Option Integer :=
  if h : leastInteger ≤ value ∧ value ≤ greatestInteger then some ⟨value, h.1, h.2⟩ else none

@[simp] theorem Integer.ofInt?_value (integer : Integer) : ofInt? integer.value = some integer := by
  simp [ofInt?, integer.least_le, integer.le_greatest]

end Json

/-- A JSON value. A number written without fraction and exponent is an `integer` where it fits a
word; every other number is a `float`. -/
inductive Json where
  | null
  | bool (value : Bool)
  | integer (value : Json.Integer)
  | float (value : Binary64)
  | string (value : String)
  | array (items : List Json)
  | object (members : List (String × Json))
  deriving Repr, Inhabited

namespace Json

/-- An object's members, in order. -/
abbrev Members := List (String × Json)

/-- Binds a key: the last value given for a key counts, at the place where the key was first. -/
def put (key : String) (value : Json) : Members → Members
  | [] => [(key, value)]
  | (k, v) :: rest => if k = key then (key, value) :: rest else (k, v) :: put key value rest

/-- The value of a member of an object. -/
def get? (key : String) : Json → Option Json
  | object members => members.lookup key
  | _ => none

/-- The keys of an object's members, in order. -/
def keys (members : Members) : List String :=
  members.map Prod.fst

theorem keys_put (key : String) (value : Json) (members : Members) :
    keys (put key value members) =
      if key ∈ keys members then keys members else keys members ++ [key] := by
  induction members with
  | nil => rfl
  | cons member rest ih =>
    obtain ⟨k, v⟩ := member
    by_cases h : k = key
    · simp [put, keys, h]
    · simp only [keys] at ih
      by_cases hmem : key ∈ rest.map Prod.fst
      · simp [put, keys, h, Ne.symm h, ih, hmem]
      · simp [put, keys, h, Ne.symm h, ih, hmem]

mutual

/-- The number of brackets and braces that are open at the deepest place. -/
def nesting : Json → Nat
  | array items => nestingOfItems items + 1
  | object members => nestingOfMembers members + 1
  | _ => 0

/-- The deepest nesting among items. -/
def nestingOfItems : List Json → Nat
  | [] => 0
  | item :: rest => max item.nesting (nestingOfItems rest)

/-- The deepest nesting among the values of members. -/
def nestingOfMembers : List (String × Json) → Nat
  | [] => 0
  | (_, value) :: rest => max value.nesting (nestingOfMembers rest)

end

/-- Every object inside the value, and the value itself if it is one, has distinct keys. -/
inductive HasDistinctKeys : Json → Prop
  | null : HasDistinctKeys null
  | bool (value : Bool) : HasDistinctKeys (bool value)
  | integer (value : Integer) : HasDistinctKeys (integer value)
  | float (value : Binary64) : HasDistinctKeys (float value)
  | string (value : String) : HasDistinctKeys (string value)
  | array (items : List Json) : (∀ item ∈ items, HasDistinctKeys item) →
      HasDistinctKeys (array items)
  | object (members : Members) : (keys members).Nodup →
      (∀ member ∈ members, HasDistinctKeys member.2) → HasDistinctKeys (object members)

/-- No number inside the value is a float. -/
inductive IsFloatFree : Json → Prop
  | null : IsFloatFree null
  | bool (value : Bool) : IsFloatFree (bool value)
  | integer (value : Integer) : IsFloatFree (integer value)
  | string (value : String) : IsFloatFree (string value)
  | array (items : List Json) : (∀ item ∈ items, IsFloatFree item) → IsFloatFree (array items)
  | object (members : Members) : (∀ member ∈ members, IsFloatFree member.2) →
      IsFloatFree (object members)

end Json

end ConfigDiagnostics
