import ConfigDiagnostics.Finding
import ConfigDiagnostics.Proofs.Wire
import ConfigDiagnostics.Settings

/-!
# Records by position and by name

A record may be given as an array, by the positions of its fields, or as an object, by their names.
Items in the order of the fields and the members that name them are read alike: both end at the
first item that its field cannot read, and say the same about it. Only where a field is missing do
they differ in words, as an array is then too short and an object has no such member.

## Main definitions

* `Fields.readGiven`: what items give for the fields, by position
* `Fields.required`: the names of the fields that have no fallback
* `Record.ReadsAlike`: a record is read from items as from the members that name them
* `RecordsReadAlike`: all records of the library are

## Main results

* `Record.takeMembers_zip`: members that name items are taken as the items are read
* `Fields.readItems_of_complete`, `Fields.readItems_of_missing`: an array after its items are read
* `Record.readsAlike`: a record whose keys are distinct is read alike
* `recordsReadAlike`: the records of the library are
-/

namespace ConfigDiagnostics

namespace Fields

variable {α β : Type} {items : List Json} {mismatch : Mismatch} {short : Nat → Mismatch}

/-- What items give for the fields, by position. The first item that its field cannot read is what
is wrong with them; a field past the last item is not given. -/
def readGiven : {α : Type} → (fields : Fields α) → List Json → Except Mismatch fields.Slots
  | _, nil, _ => .ok ()
  | _, cons _ rest, [] => .ok (none, rest.noneGiven)
  | _, cons field rest, item :: items =>
    match field.read item with
    | .error mismatch => .error mismatch
    | .ok value => (rest.readGiven items).map fun slots => (some value, slots)

/-- The names of the fields that have no fallback. -/
def required : {α : Type} → Fields α → List String
  | _, nil => []
  | _, cons field rest =>
    if field.fallback.isNone then field.name :: rest.required else rest.required

theorem readGiven_nil (fields : Fields α) : fields.readGiven [] = .ok fields.noneGiven := by
  cases fields <;> rfl

theorem names_subset_keys (fields : Fields α) : fields.names ⊆ fields.keys := by
  induction fields with
  | nil => exact List.nil_subset _
  | cons field rest ih =>
    rw [names, keys, List.cons_subset]
    exact ⟨List.mem_append_left _ List.mem_cons_self, List.subset_append_of_subset_right _ ih⟩

theorem take_cons_of_notMem {field : Field α} {rest : Fields β} {slots : (cons field rest).Slots}
    {key : String} {json : Json} (h : key ∉ field.keys) :
    (cons field rest).take slots key json =
      (rest.take slots.tail key json).map (Option.map fun tail => (slots.head, tail)) := by
  rw [take, if_neg (mt Field.goesBy_iff.mp h)]
  cases rest.take slots.tail key json <;> rfl

section

variable {field : Field α} {rest : Fields β} {item : Json} {value : α}

theorem readGiven_cons_of_error (h : field.read item = .error mismatch) :
    (cons field rest).readGiven (item :: items) = .error mismatch := by
  rw [readGiven, h]

theorem readGiven_cons_of_ok (h : field.read item = .ok value) :
    (cons field rest).readGiven (item :: items) =
      (rest.readGiven items).map fun slots => (some value, slots) := by
  simp only [readGiven, h]
  rfl

/-- Items that can be read give the first field its value, and the other fields theirs. -/
theorem exists_of_readGiven_cons {slots : (cons field rest).Slots}
    (h : (cons field rest).readGiven (item :: items) = .ok slots) :
    ∃ value tail, field.read item = .ok value ∧ rest.readGiven items = .ok tail ∧
      slots = (some value, tail) := by
  cases hread : field.read item with
  | error _ =>
    rw [readGiven_cons_of_error hread] at h
    cases h
  | ok value =>
    rw [readGiven_cons_of_ok hread] at h
    cases hrest : rest.readGiven items with
    | error _ =>
      rw [hrest] at h
      cases h
    | ok tail =>
      rw [hrest] at h
      exact ⟨value, tail, rfl, rfl, (Except.ok.inj h).symm⟩

theorem readItems_cons_of_error (h : field.read item = .error mismatch) (position : Nat) :
    (cons field rest).readItems short position (item :: items) = .error mismatch := by
  simp only [readItems, h]

theorem readItems_cons_of_ok (h : field.read item = .ok value) (position : Nat) :
    (cons field rest).readItems short position (item :: items) =
      (rest.readItems short (position + 1) items).map fun (values, left) =>
        ((value, values), left) := by
  simp only [readItems, h, List.drop_succ_cons, List.drop_zero]
  cases rest.readItems short (position + 1) items <;> rfl

theorem readItems_nil_of_some (h : field.fallback = some value) (position : Nat) :
    (cons field rest).readItems short position [] =
      (rest.readItems short (position + 1) []).map fun (values, left) =>
        ((value, values), left) := by
  simp only [readItems, h, List.drop_nil]
  cases rest.readItems short (position + 1) [] <;> rfl

theorem readItems_nil_of_none (h : field.fallback = none) (position : Nat) :
    (cons field rest).readItems short position [] = .error (short position) := by
  simp only [readItems, h]

/-- A record is incomplete where a required field is not given, the first or one of the others. -/
theorem complete_cons_eq_error {slots : (cons field rest).Slots}
    (h : (cons field rest).complete slots = .error mismatch) :
    (slots.head = none ∧ field.fallback = none ∧ mismatch = .missingField field.name) ∨
      ∃ value, slots.head.or field.fallback = some value ∧
        rest.complete slots.tail = .error mismatch := by
  rw [complete] at h
  cases hvalue : slots.head.or field.fallback with
  | none =>
    rw [hvalue] at h
    obtain ⟨hhead, hfallback⟩ := Option.or_eq_none_iff.mp hvalue
    exact .inl ⟨hhead, hfallback, (Except.error.inj h).symm⟩
  | some value =>
    rw [hvalue] at h
    cases hrest : rest.complete slots.tail with
    | ok _ => simp only [hrest, reduceCtorEq] at h
    | error _ =>
      simp only [hrest] at h
      exact .inr ⟨value, rfl, congrArg _ (Except.error.inj h)⟩

theorem mem_required_cons {name : String} (h : name ∈ rest.required) :
    name ∈ (cons field rest).required := by
  rw [required]
  split
  · exact List.mem_cons_of_mem _ h
  · exact h

end

/-- An item that its field cannot read is also what is wrong with an array. -/
theorem readItems_of_error {fields : Fields α} (h : fields.readGiven items = .error mismatch)
    (position : Nat) : fields.readItems short position items = .error mismatch := by
  induction fields generalizing items position with
  | nil => cases h
  | cons field rest ih =>
    cases items with
    | nil => cases h
    | cons item items =>
      cases hread : field.read item with
      | error _ =>
        rw [readGiven_cons_of_error hread] at h
        rw [readItems_cons_of_error hread, Except.error.inj h]
      | ok value =>
        rw [readGiven_cons_of_ok hread] at h
        cases hrest : rest.readGiven items with
        | ok _ =>
          rw [hrest] at h
          cases h
        | error _ =>
          rw [hrest] at h
          obtain rfl := Except.error.inj h
          rw [readItems_cons_of_ok hread, ih hrest]
          rfl

/-- Where what the items give can be completed, an array has the same values, and the items past
the last field are left. -/
theorem readItems_of_complete {fields : Fields α} {slots : fields.Slots} {values : α}
    (hgiven : fields.readGiven items = .ok slots) (hcomplete : fields.complete slots = .ok values)
    (position : Nat) :
    fields.readItems short position items = .ok (values, items.drop fields.names.length) := by
  induction fields generalizing items position with
  | nil =>
    obtain rfl := Except.ok.inj hcomplete
    rfl
  | cons field rest ih =>
    obtain ⟨value, values⟩ := values
    rw [complete_cons_iff] at hcomplete
    obtain ⟨hvalue, hvalues⟩ := hcomplete
    cases items with
    | nil =>
      -- Nothing is given, so the fallbacks are the values.
      obtain rfl := Except.ok.inj hgiven
      rw [readItems_nil_of_some hvalue, ih (readGiven_nil rest) hvalues, List.drop_nil,
        List.drop_nil]
      rfl
    | cons item items =>
      obtain ⟨own, tail, hread, hrest, rfl⟩ := exists_of_readGiven_cons hgiven
      obtain rfl := Option.some.inj hvalue
      rw [readItems_cons_of_ok hread, ih hrest hvalues]
      rfl

/-- Where it cannot be completed, a required field past the last item is missing, and the array is
too short for it. -/
theorem readItems_of_missing {fields : Fields α} {slots : fields.Slots}
    (hgiven : fields.readGiven items = .ok slots)
    (hcomplete : fields.complete slots = .error mismatch) (position : Nat) :
    ∃ index name, items.length ≤ index ∧ fields.names[index]? = some name ∧
      name ∈ fields.required ∧ mismatch = .missingField name ∧
      fields.readItems short position items = .error (short (position + index)) := by
  induction fields generalizing items position with
  | nil => cases hcomplete
  | cons field rest ih =>
    cases items with
    | nil =>
      obtain rfl := Except.ok.inj hgiven
      rcases complete_cons_eq_error hcomplete with ⟨-, hnone, rfl⟩ | ⟨value, hvalue, hrest⟩
      · refine ⟨0, field.name, Nat.le_refl 0, rfl, ?_, rfl, readItems_nil_of_none hnone position⟩
        rw [required, hnone]
        exact List.mem_cons_self
      · obtain ⟨index, name, -, hname, hrequired, rfl, hshort⟩ :=
          ih (readGiven_nil rest) hrest (position + 1)
        refine ⟨index + 1, name, Nat.zero_le _, hname, mem_required_cons hrequired, rfl, ?_⟩
        rw [readItems_nil_of_some hvalue, hshort, Nat.add_right_comm]
        rfl
    | cons item items =>
      obtain ⟨own, tail, hread, htail, rfl⟩ := exists_of_readGiven_cons hgiven
      rcases complete_cons_eq_error hcomplete with ⟨hnone, -, -⟩ | ⟨value, -, hrest⟩
      · cases hnone
      · obtain ⟨index, name, hle, hname, hrequired, rfl, hshort⟩ := ih htail hrest (position + 1)
        refine ⟨index + 1, name, Nat.succ_le_succ hle, hname, mem_required_cons hrequired, rfl, ?_⟩
        rw [readItems_cons_of_ok hread, hshort, Nat.add_right_comm]
        rfl

end Fields

namespace Record

variable {α β : Type} {items : List Json} {mismatch : Mismatch}

/-- Members by keys of the other fields leave the first field as it is. -/
theorem takeMembers_cons {title : String} {closed : Bool} {field : Field α} {rest : Fields β}
    {members : Json.Members} {slots : (Fields.cons field rest).Slots}
    (h : ∀ member ∈ members, member.1 ∈ rest.keys ∧ member.1 ∉ field.keys) :
    (Record.mk title (.cons field rest) closed).takeMembers members slots =
      ((Record.mk title rest closed).takeMembers members slots.tail).map fun tail =>
        (slots.head, tail) := by
  induction members generalizing slots with
  | nil => rfl
  | cons member members ih =>
    obtain ⟨key, json⟩ := member
    rw [List.forall_mem_cons] at h
    obtain ⟨⟨hrest, hfield⟩, hmembers⟩ := h
    rw [takeMembers, takeMembers, Fields.take_cons_of_notMem hfield]
    cases htake : rest.take slots.tail key json with
    | error _ => rfl
    | ok taken =>
      cases taken with
      | none => exact absurd hrest (Fields.take_eq_none_iff.mp htake)
      | some tail => exact ih hmembers

/-- Members that name items by the fields are taken as the items are read. -/
theorem takeMembers_zip {record : Record α} (hkeys : record.fields.keys.Nodup) (items : List Json) :
    record.takeMembers (record.fields.names.zip items) record.fields.noneGiven =
      record.fields.readGiven items := by
  obtain ⟨title, fields, closed⟩ := record
  induction fields generalizing items with
  | nil => rfl
  | cons field rest ih =>
    cases items with
    | nil => rfl
    | cons item items =>
      obtain ⟨-, hrest, hdisjoint⟩ := List.nodup_append.mp hkeys
      have hname : field.name ∈ field.keys := List.mem_cons_self
      -- The names of the other fields are keys of theirs, and so none of the first.
      have hothers : ∀ member ∈ rest.names.zip items,
          member.1 ∈ rest.keys ∧ member.1 ∉ field.keys := by
        intro member hmember
        have hkey := rest.names_subset_keys (List.of_mem_zip hmember).1
        exact ⟨hkey, fun hmem => hdisjoint _ hmem _ hkey rfl⟩
      change (Record.mk title (.cons field rest) closed).takeMembers
        ((field.name, item) :: rest.names.zip items) (Fields.cons field rest).noneGiven = _
      rw [takeMembers]
      cases hread : field.read item with
      | error mismatch =>
        have htake : (Fields.cons field rest).take (Fields.cons field rest).noneGiven field.name
            item = .error mismatch :=
          Fields.take_cons_of_error hname rfl hread
        rw [htake, Fields.readGiven_cons_of_error hread]
      | ok value =>
        have htake : (Fields.cons field rest).take (Fields.cons field rest).noneGiven field.name
            item = .ok (some (some value, rest.noneGiven)) :=
          (Fields.take_cons_iff_of_mem hname).mpr ⟨rfl, value, hread, rfl⟩
        rw [htake, Fields.readGiven_cons_of_ok hread, ← ih items hrest]
        exact takeMembers_cons hothers

/-- A record is read from items as from the members that name them by its fields. -/
structure ReadsAlike (record : Record α) (names : List String) : Prop where
  /-- The fields go by these names, in this order. -/
  names_eq : record.fields.names = names
  /-- No more items than there are fields are read exactly if the members that name them are, and
  then as the same values. -/
  ok_iff : ∀ items values, items.length ≤ names.length →
    (record.decode (.array items) = .ok values ↔
      record.decode (.object (names.zip items)) = .ok values)
  /-- The first item that its field cannot read is what is wrong with both. -/
  refused : ∀ items mismatch, record.fields.readGiven items = .error mismatch →
    record.decode (.array items) = .error mismatch ∧
      record.decode (.object (names.zip items)) = .error mismatch
  /-- Otherwise nothing can be wrong with them but that a required field is missing, which an array
  says by its position and an object by its name. -/
  missing : ∀ items slots, items.length ≤ names.length → record.fields.readGiven items = .ok slots →
    (∀ values, record.decode (.array items) ≠ .ok values) →
    ∃ index name, items.length ≤ index ∧ names[index]? = some name ∧
      name ∈ record.fields.required ∧
      record.decode (.array items) = .error (.tooFewItems index record.title names.length) ∧
      record.decode (.object (names.zip items)) = .error (.missingField name)
  /-- More items than there are fields are not read. -/
  not_ok_of_lt : ∀ items values, names.length < items.length →
    record.decode (.array items) ≠ .ok values

section

variable {record : Record α} {items : List Json} {slots : record.fields.Slots} {values : α}

theorem decode_array_of_error (h : record.fields.readGiven items = .error mismatch) :
    record.decode (.array items) = .error mismatch := by
  simp only [decode, ofItems, Fields.readItems_of_error h]

theorem decode_array_of_complete (hgiven : record.fields.readGiven items = .ok slots)
    (hcomplete : record.fields.complete slots = .ok values) :
    record.decode (.array items) =
      if items.length ≤ record.fields.names.length then .ok values
      else .error (.tooManyItems items.length) := by
  simp only [decode, ofItems, Fields.readItems_of_complete hgiven hcomplete, List.isEmpty_iff,
    List.drop_eq_nil_iff]

theorem exists_decode_array_of_missing (hgiven : record.fields.readGiven items = .ok slots)
    (hcomplete : record.fields.complete slots = .error mismatch) :
    ∃ index name, items.length ≤ index ∧ record.fields.names[index]? = some name ∧
      name ∈ record.fields.required ∧ mismatch = .missingField name ∧
      record.decode (.array items) =
        .error (.tooFewItems index record.title record.fields.names.length) := by
  let short index := Mismatch.tooFewItems index record.title record.fields.names.length
  obtain ⟨index, name, hle, hname, hrequired, hmismatch, hshort⟩ :
      ∃ index name, items.length ≤ index ∧ record.fields.names[index]? = some name ∧
        name ∈ record.fields.required ∧ mismatch = .missingField name ∧
        record.fields.readItems short 0 items = .error (short (0 + index)) :=
    Fields.readItems_of_missing hgiven hcomplete 0
  refine ⟨index, name, hle, hname, hrequired, hmismatch, ?_⟩
  rw [Nat.zero_add] at hshort
  simp only [decode, ofItems, short, hshort]

/-- The members that name items are read as what the items give, completed. -/
theorem decode_object_zip (hkeys : record.fields.keys.Nodup) :
    record.decode (.object (record.fields.names.zip items)) =
      record.fields.readGiven items >>= record.fields.complete := by
  rw [decode, ofMembers, takeMembers_zip hkeys]
  cases record.fields.readGiven items <;> rfl

end

/-- A record whose fields go by distinct keys is read alike from an array and from an object. -/
theorem readsAlike {record : Record α} (hkeys : record.fields.keys.Nodup) :
    record.ReadsAlike record.fields.names where
  names_eq := rfl
  ok_iff items values hle := by
    rw [decode_object_zip hkeys]
    cases hgiven : record.fields.readGiven items with
    | error _ => rw [decode_array_of_error hgiven]; exact Iff.rfl
    | ok slots =>
      change _ ↔ record.fields.complete slots = .ok values
      cases hcomplete : record.fields.complete slots with
      | error _ =>
        obtain ⟨_, _, -, -, -, -, hshort⟩ := exists_decode_array_of_missing hgiven hcomplete
        rw [hshort]
        exact ⟨nofun, nofun⟩
      | ok _ => rw [decode_array_of_complete hgiven hcomplete, if_pos hle]
  refused items mismatch hgiven := by
    rw [decode_object_zip hkeys, decode_array_of_error hgiven, hgiven]
    exact ⟨rfl, rfl⟩
  missing items slots hle hgiven hnot := by
    rw [decode_object_zip hkeys, hgiven]
    change ∃ index name, _ ∧ _ ∧ _ ∧ _ ∧ record.fields.complete slots = _
    cases hcomplete : record.fields.complete slots with
    | error _ =>
      obtain ⟨index, name, hindex, hname, hrequired, rfl, hshort⟩ :=
        exists_decode_array_of_missing hgiven hcomplete
      exact ⟨index, name, hindex, hname, hrequired, hshort, rfl⟩
    | ok values =>
      rw [decode_array_of_complete hgiven hcomplete, if_pos hle] at hnot
      exact absurd rfl (hnot values)
  not_ok_of_lt items values hlt := by
    cases hgiven : record.fields.readGiven items with
    | error _ => rw [decode_array_of_error hgiven]; exact nofun
    | ok slots =>
      cases hcomplete : record.fields.complete slots with
      | error _ =>
        obtain ⟨_, _, -, -, -, -, hshort⟩ := exists_decode_array_of_missing hgiven hcomplete
        rw [hshort]
        exact nofun
      | ok _ =>
        rw [decode_array_of_complete hgiven hcomplete, if_neg (Nat.not_le.mpr hlt)]
        exact nofun

/-- Where every required field is given, an array and an object are read as the same value, or are
refused in the same words. -/
theorem ReadsAlike.decode_eq {record : Record α} {names : List String}
    (halike : record.ReadsAlike names) {items : List Json} (hle : items.length ≤ names.length)
    (hrequired : ∀ name ∈ record.fields.required, name ∉ names.drop items.length) :
    record.decode (.array items) = record.decode (.object (names.zip items)) := by
  cases hgiven : record.fields.readGiven items with
  | error mismatch =>
    obtain ⟨harray, hobject⟩ := halike.refused items mismatch hgiven
    rw [harray, hobject]
  | ok slots =>
    cases harray : record.decode (.array items) with
    | ok values => exact ((halike.ok_iff items values hle).mp harray).symm
    | error _ =>
      have hnot : ∀ values, record.decode (.array items) ≠ .ok values := by
        rw [harray]
        exact fun _ => nofun
      obtain ⟨index, name, hindex, hname, hmem, -, -⟩ := halike.missing items slots hle hgiven hnot
      have hdrop : name ∈ names.drop items.length := by
        refine List.mem_of_getElem? (i := index - items.length) ?_
        rw [List.getElem?_drop, Nat.add_sub_cancel' hindex, hname]
      exact absurd hdrop (hrequired name hmem)

end Record

namespace Violation

/-- The names of the fields of a violation's record, in order. -/
def fieldNames : List String :=
  ["dataPath", "keyword", "message", "params", "data"]

theorem readsAlike_record : record.ReadsAlike fieldNames :=
  Record.readsAlike nodup_keys_record

/-- A violation is read from what its record is read from. -/
theorem ofJson_congr {value other : Json} (h : record.decode value = record.decode other) :
    ofJson value = ofJson other := by
  rw [ofJson, ofJson, h]

theorem ofJson_array_eq_ok_iff {items : List Json} {violation : Violation}
    (hle : items.length ≤ fieldNames.length) :
    ofJson (.array items) = .ok violation ↔
      ofJson (.object (fieldNames.zip items)) = .ok violation := by
  simp only [ofJson_eq_ok_iff, readsAlike_record.ok_iff items _ hle]

theorem ofJson_of_refused {items : List Json} {mismatch : Mismatch}
    (hgiven : record.fields.readGiven items = .error mismatch) :
    ofJson (.array items) = .error mismatch ∧
      ofJson (.object (fieldNames.zip items)) = .error mismatch := by
  obtain ⟨harray, hobject⟩ := readsAlike_record.refused items mismatch hgiven
  rw [ofJson, ofJson, harray, hobject]
  exact ⟨rfl, rfl⟩

/-- Where the keyword is given, nothing that is missing can make a difference. -/
theorem ofJson_array_eq {items : List Json} (hle : items.length ≤ fieldNames.length)
    (hkeyword : 2 ≤ items.length) :
    ofJson (.array items) = ofJson (.object (fieldNames.zip items)) := by
  refine ofJson_congr (readsAlike_record.decode_eq hle ?_)
  have hrequired : record.fields.required = ["keyword"] := rfl
  rw [hrequired, List.forall_mem_singleton]
  have hdrop : fieldNames.drop 2 = ["message", "params", "data"] := rfl
  intro hmem
  have hlater := (List.drop_sublist_drop_left fieldNames hkeyword).subset hmem
  rw [hdrop] at hlater
  exact absurd hlater (by decide)

theorem ofJson_array_ne_ok {items : List Json} (hlt : fieldNames.length < items.length)
    (violation : Violation) : ofJson (.array items) ≠ .ok violation := by
  intro h
  obtain ⟨_, _, hdecode, -⟩ := ofJson_eq_ok_iff.mp h
  exact readsAlike_record.not_ok_of_lt items _ hlt hdecode

end Violation

namespace Finding

theorem readsAlike_parserRecord : parserRecord.ReadsAlike ["message"] :=
  Record.readsAlike (by decide)

theorem readsAlike_malformedRecord : malformedRecord.ReadsAlike ["error", "resource"] :=
  Record.readsAlike (by decide)

theorem readsAlike_violationsRecord : violationsRecord.ReadsAlike ["errors", "resource"] :=
  Record.readsAlike (by decide)

end Finding

/-- The records of the library are read from items as from the members that name them. -/
structure RecordsReadAlike : Prop where
  violation : Violation.record.ReadsAlike ["dataPath", "keyword", "message", "params", "data"]
  parserError : Finding.parserRecord.ReadsAlike ["message"]
  malformed : Finding.malformedRecord.ReadsAlike ["error", "resource"]
  violations : Finding.violationsRecord.ReadsAlike ["errors", "resource"]
  settings : Settings.record.ReadsAlike ["channelCapacity", "rules"]
  /-- So is the violation that is made of a record after all of it has been read. -/
  ofJson_ok_iff : ∀ items violation, items.length ≤ 5 →
    (Violation.ofJson (.array items) = .ok violation ↔
      Violation.ofJson (.object (Violation.fieldNames.zip items)) = .ok violation)
  ofJson_refused : ∀ items mismatch, Violation.record.fields.readGiven items = .error mismatch →
    Violation.ofJson (.array items) = .error mismatch ∧
      Violation.ofJson (.object (Violation.fieldNames.zip items)) = .error mismatch
  /-- The keyword is the only field that has to be there. With it, even parameters in the wrong form
  are refused in the same words. -/
  ofJson_eq : ∀ items, 2 ≤ items.length → items.length ≤ 5 →
    Violation.ofJson (.array items) =
      Violation.ofJson (.object (Violation.fieldNames.zip items))
  ofJson_not_ok_of_lt : ∀ items violation, 5 < items.length →
    Violation.ofJson (.array items) ≠ .ok violation

/-- Each record of the library may be given by position or by name. -/
theorem recordsReadAlike : RecordsReadAlike where
  violation := Violation.readsAlike_record
  parserError := Finding.readsAlike_parserRecord
  malformed := Finding.readsAlike_malformedRecord
  violations := Finding.readsAlike_violationsRecord
  settings := Record.readsAlike (by decide)
  ofJson_ok_iff _ _ hle := Violation.ofJson_array_eq_ok_iff hle
  ofJson_refused _ _ hgiven := Violation.ofJson_of_refused hgiven
  ofJson_eq _ hkeyword hle := Violation.ofJson_array_eq hle hkeyword
  ofJson_not_ok_of_lt _ violation hlt := Violation.ofJson_array_ne_ok hlt violation

/-- A violation by position whose parameters are refused, as they are by name. -/
theorem recordsReadAlike_enum :
    2 ≤ [Json.string "/target", .string "enum", .string "",
        .object [("allowedValues", .null)]].length ∧
      [Json.string "/target", .string "enum", .string "",
        .object [("allowedValues", .null)]].length ≤ 5 ∧
      Violation.ofJson (.array [.string "/target", .string "enum", .string "",
        .object [("allowedValues", .null)]]) = .error (.unfitParams .allowedValues) := by
  refine ⟨by decide, by decide, ?_⟩
  rw [recordsReadAlike.ofJson_eq _ (by decide) (by decide)]
  rfl

end ConfigDiagnostics
