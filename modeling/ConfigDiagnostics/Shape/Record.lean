import ConfigDiagnostics.Shape.Mismatch

/-!
# Records

A record has fields in an order. It is read from an object, by the names of its members, or from
an array, by the positions of its items.

From an object the members are taken in their own order, and the first that cannot be taken is
what is wrong; then the fields that no member gave are filled in their order. From an array the
fields are read one after another, and only then it is checked that no item is left.

## Main definitions

* `Field`: one field of a record
* `Fields`: the fields of a record, indexed by the type of their values together
* `Record`: a record's title and fields, and whether unknown members are refused
* `Record.decode`: a record's values from JSON
-/

namespace ConfigDiagnostics

/-- One field of a record: its name, a second name it may be given under, how its value is read,
and the value it has when it is not given. A field without such a value is required. -/
structure Field (α : Type) where
  name : String
  otherName : Option String := none
  read : Json → Except Mismatch α
  fallback : Option α := none

namespace Field

/-- The field goes by this key. -/
def goesBy {α : Type} (field : Field α) (key : String) : Bool :=
  key == field.name || some key == field.otherName

end Field

/-- The fields of a record in their order. The index is the type of their values, each paired with
the values of the fields after it. -/
inductive Fields : Type → Type 1 where
  | nil : Fields Unit
  | cons {α β : Type} (field : Field α) (rest : Fields β) : Fields (α × β)

namespace Fields

/-- The names of the fields. -/
def names : {α : Type} → Fields α → List String
  | _, nil => []
  | _, cons field rest => field.name :: rest.names

/-- What has been given so far: for each field its value, if any. -/
def Slots : {α : Type} → Fields α → Type
  | _, nil => Unit
  | _, cons (α := α) _ rest => Option α × rest.Slots

/-- The slot of the first field. -/
def Slots.head {α β : Type} {field : Field α} {rest : Fields β}
    (slots : (cons field rest).Slots) : Option α :=
  Prod.fst slots

/-- The slots of the other fields. -/
def Slots.tail {α β : Type} {field : Field α} {rest : Fields β}
    (slots : (cons field rest).Slots) : rest.Slots :=
  Prod.snd slots

/-- Nothing has been given. -/
def noneGiven : {α : Type} → (fields : Fields α) → fields.Slots
  | _, nil => ()
  | _, cons _ rest => (none, rest.noneGiven)

/-- Takes a member into the slot of its field; none if no field goes by its key. A field may be
given once. -/
def take : {α : Type} → (fields : Fields α) → fields.Slots → String → Json →
    Except Mismatch (Option fields.Slots)
  | _, nil, _, _, _ => .ok none
  | _, cons field rest, slots, key, value =>
    if field.goesBy key then
      if slots.head.isSome then .error (.duplicateField field.name)
      else
        match field.read value with
        | .ok given => .ok (some (some given, slots.tail))
        | .error mismatch => .error mismatch
    else
      match rest.take slots.tail key value with
      | .ok taken => .ok (taken.map fun tail => (slots.head, tail))
      | .error mismatch => .error mismatch

/-- The values of all fields: those given, and the fallbacks of the others. -/
def complete : {α : Type} → (fields : Fields α) → fields.Slots → Except Mismatch α
  | _, nil, _ => .ok ()
  | _, cons field rest, slots =>
    match slots.head.or field.fallback with
    | none => .error (.missingField field.name)
    | some value =>
      match rest.complete slots.tail with
      | .ok values => .ok (value, values)
      | .error mismatch => .error mismatch

/-- The values of all fields from items in the same order, and the items left over. A required
field past the last item ends the reading with `short`, given its position. -/
def readItems (short : Nat → Mismatch) : {α : Type} → (fields : Fields α) → (position : Nat) →
    List Json → Except Mismatch (α × List Json)
  | _, nil, _, items => .ok ((), items)
  | _, cons field rest, position, items =>
    let given := match items with
      | item :: _ => field.read item
      | [] => match field.fallback with
        | some value => .ok value
        | none => .error (short position)
    match given with
    | .error mismatch => .error mismatch
    | .ok value =>
      match rest.readItems short (position + 1) (items.drop 1) with
      | .ok (values, left) => .ok ((value, values), left)
      | .error mismatch => .error mismatch

end Fields

/-- A kind of record: its title, its fields, and whether it refuses members that no field goes
by. -/
structure Record (α : Type) where
  title : String
  fields : Fields α
  closed : Bool := false

namespace Record

variable {α : Type}

/-- Takes the members of an object one after another. -/
def takeMembers (record : Record α) :
    Json.Members → record.fields.Slots → Except Mismatch record.fields.Slots
  | [], slots => .ok slots
  | (key, value) :: rest, slots =>
    match record.fields.take slots key value with
    | .error mismatch => .error mismatch
    | .ok (some slots) => record.takeMembers rest slots
    | .ok none =>
      if record.closed then .error (.unknownField key record.fields.names)
      else record.takeMembers rest slots

/-- The record's values from the members of an object. -/
def ofMembers (record : Record α) (members : Json.Members) : Except Mismatch α :=
  match record.takeMembers members record.fields.noneGiven with
  | .ok slots => record.fields.complete slots
  | .error mismatch => .error mismatch

/-- The record's values from the items of an array. -/
def ofItems (record : Record α) (items : List Json) : Except Mismatch α :=
  let short position := .tooFewItems position record.title record.fields.names.length
  match record.fields.readItems short 0 items with
  | .error mismatch => .error mismatch
  | .ok (values, left) =>
    if left.isEmpty then .ok values else .error (.tooManyItems items.length)

/-- The record's values from JSON: an object by name or an array by position. -/
def decode (record : Record α) : Json → Except Mismatch α
  | .object members => record.ofMembers members
  | .array items => record.ofItems items
  | other => .error (.wrongType other (.record record.title))

end Record

end ConfigDiagnostics
