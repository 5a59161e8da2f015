import ConfigDiagnostics.Shape.Record
import ConfigDiagnostics.Shape.Scalar
import Mathlib.Data.List.Induction
import Mathlib.Data.List.Nodup

/-!
# Reading a record from an object

The members of an object are taken one after another, each into the slot of the field that goes by
its key. What comes of it does not depend on the order: a field has a value exactly if one member
gives it and can be read, or none gives it and there is a fallback. A record is read exactly if all
of its fields have values. Where the keys of the object are distinct, what gives a field is what is
found under its keys.

Only if the reading fails does the order matter, as the first member that is refused is what is
wrong.

## Main definitions

* `Field.Gives`, `Field.Has`: what members give for a field, and the value it has after them
* `Fields.Give`, `Fields.Have`: the same for all fields of a record
* `Record.Admits`: no member is refused for its key

## Main results

* `Record.takeMembers_eq_ok_iff`, `Record.ofMembers_eq_ok_iff`,
  `Record.ofMembers_eq_ok_iff_of_open`: when a record is read, and as what
* `Record.ofMembers_congr`: neither order nor other members make a difference
* `Record.ofMembers_of_take_eq_error`: the first member that is refused
* `Field.has_iff`: the value of a field, by what is found under its keys
-/

namespace ConfigDiagnostics

namespace Json

variable {members : Members} {key : String} {json : Json}

theorem lookup_eq_none_iff : members.lookup key = none ↔ key ∉ keys members := by
  simp only [List.lookup_eq_none_iff, keys, List.mem_map, not_exists, not_and, bne_iff_ne]
  exact forall₂_congr fun _ _ => ne_comm

/-- Where keys are distinct, to be found under a key is to be a member. -/
theorem lookup_eq_some_iff_mem (h : (keys members).Nodup) :
    members.lookup key = some json ↔ (key, json) ∈ members := by
  constructor
  · intro hlookup
    obtain ⟨before, after, rfl, -⟩ := List.lookup_eq_some_iff.mp hlookup
    exact List.mem_append_right _ List.mem_cons_self
  · intro hmem
    obtain ⟨before, after, rfl⟩ := List.append_of_mem hmem
    rw [keys, List.map_append, List.map_cons, List.nodup_middle, List.nodup_cons,
      List.mem_append] at h
    refine List.lookup_eq_some_iff.mpr ⟨before, after, rfl, ?_⟩
    -- An earlier member under the key would be a second one.
    intro member hmember
    rw [bne_iff_ne]
    intro heq
    have hfound := List.mem_map_of_mem (f := Prod.fst) hmember
    rw [← heq] at hfound
    exact h.1 (.inl hfound)

/-- Members that name items have distinct keys, if the names are distinct. -/
theorem nodup_keys_zip {names : List String} (h : names.Nodup) (items : List Json) :
    (keys (names.zip items)).Nodup := by
  induction names generalizing items with
  | nil => exact .nil
  | cons name rest ih =>
    cases items with
    | nil => exact .nil
    | cons item items =>
      rw [List.nodup_cons] at h
      refine List.nodup_cons.mpr ⟨?_, ih h.2 items⟩
      intro hmem
      obtain ⟨member, hmember, rfl⟩ := List.mem_map.mp hmem
      exact h.1 (List.of_mem_zip hmember).1

end Json

namespace Field

variable {α : Type} {field : Field α} {members others : Json.Members} {key : String} {json : Json}
  {slot : Option α} {value : α}

/-- The keys that a field goes by. -/
def keys (field : Field α) : List String :=
  field.name :: field.otherName.toList

theorem keys_of_lone (h : field.otherName = none) : field.keys = [field.name] := by
  rw [keys, h]
  rfl

theorem goesBy_iff : field.goesBy key = true ↔ key ∈ field.keys := by
  rw [goesBy, Bool.or_eq_true, beq_iff_eq, beq_iff_eq, keys, List.mem_cons, Option.mem_toList,
    eq_comm (a := some key)]

/-- The members that give a field. -/
def givers (field : Field α) (members : Json.Members) : Json.Members :=
  members.filter fun member => field.goesBy member.1

/-- What members give for a field: nothing, or the one value that can be read from them. -/
inductive Gives (field : Field α) (members : Json.Members) : Option α → Prop
  | absent : field.givers members = [] → Gives field members none
  | given {key : String} {json : Json} {value : α} : field.givers members = [(key, json)] →
      field.read json = .ok value → Gives field members (some value)

/-- The value a field has after members: what they give for it, or else its fallback. -/
def Has (field : Field α) (members : Json.Members) (value : α) : Prop :=
  ∃ slot, field.Gives members slot ∧ slot.or field.fallback = some value

theorem givers_concat_of_mem (h : key ∈ field.keys) :
    field.givers (members ++ [(key, json)]) = field.givers members ++ [(key, json)] := by
  simp [givers, goesBy_iff.mpr h]

theorem givers_concat_of_notMem (h : key ∉ field.keys) :
    field.givers (members ++ [(key, json)]) = field.givers members := by
  simp [givers, Bool.eq_false_iff.mpr (mt goesBy_iff.mp h)]

theorem Gives.of_perm (hslot : field.Gives members slot)
    (h : (field.givers others).Perm (field.givers members)) : field.Gives others slot := by
  cases hslot with
  | absent habsent =>
    rw [habsent, List.perm_nil] at h
    exact .absent h
  | given hgiven hread =>
    rw [hgiven, List.perm_singleton] at h
    exact .given h hread

/-- What members give for a field only depends on those that give it, in any order. -/
theorem gives_congr (h : (field.givers others).Perm (field.givers members)) :
    field.Gives others slot ↔ field.Gives members slot :=
  ⟨fun hslot => hslot.of_perm h.symm, fun hslot => hslot.of_perm h⟩

/-- One more member of a field is only taken if it is the first. -/
theorem gives_concat_iff (h : key ∈ field.keys) :
    field.Gives (members ++ [(key, json)]) slot ↔
      field.Gives members none ∧ ∃ value, field.read json = .ok value ∧ slot = some value := by
  have hgivers : field.givers (members ++ [(key, json)]) = field.givers members ++ [(key, json)] :=
    givers_concat_of_mem h
  constructor
  · rintro (habsent | ⟨hgiven, hread⟩)
    · rw [hgivers] at habsent
      exact absurd habsent (List.append_ne_nil_of_right_ne_nil _ (List.cons_ne_nil _ _))
    · -- The one that gives the field is the last, so there is none before it.
      rw [hgivers, List.append_eq_singleton_iff] at hgiven
      rcases hgiven with ⟨hnil, hone⟩ | ⟨-, hnil⟩
      · obtain ⟨-, rfl⟩ := Prod.mk.inj (List.cons.inj hone).1
        exact ⟨.absent hnil, _, hread, rfl⟩
      · exact absurd hnil (List.cons_ne_nil _ _)
  · rintro ⟨⟨hnil⟩, value, hread, rfl⟩
    rw [hnil, List.nil_append] at hgivers
    exact .given hgivers hread

theorem givers_eq_nil_iff :
    field.givers members = [] ↔ ∀ key ∈ field.keys, members.lookup key = none := by
  simp only [givers, List.filter_eq_nil_iff, goesBy_iff, Json.lookup_eq_none_iff, Json.keys,
    List.mem_map, not_exists, not_and]
  constructor
  · rintro h _ hkey member hmember rfl
    exact h member hmember hkey
  · intro h member hmember hkey
    exact h _ hkey member hmember rfl

/-- Where keys are distinct, one member gives a field exactly if it is found under one key of the
field, and nothing under the others. -/
theorem givers_eq_singleton_iff (hdistinct : (Json.keys members).Nodup) :
    field.givers members = [(key, json)] ↔
      key ∈ field.keys ∧ members.lookup key = some json ∧
        ∀ other ∈ field.keys, other ≠ key → members.lookup other = none := by
  have hmem : ∀ member, member ∈ field.givers members ↔
      member ∈ members ∧ member.1 ∈ field.keys := by
    intro member
    rw [givers, List.mem_filter, goesBy_iff]
  constructor
  · intro h
    obtain ⟨hmember, hkey⟩ := (hmem (key, json)).mp (h ▸ List.mem_singleton_self _)
    refine ⟨hkey, (Json.lookup_eq_some_iff_mem hdistinct).mpr hmember, ?_⟩
    intro other hother hne
    rw [Json.lookup_eq_none_iff]
    intro hfound
    obtain ⟨member, hmember, rfl⟩ := List.mem_map.mp hfound
    have hgiver := (hmem member).mpr ⟨hmember, hother⟩
    rw [h, List.mem_singleton] at hgiver
    exact hne (congrArg Prod.fst hgiver)
  · rintro ⟨hkey, hlookup, hothers⟩
    -- Both lists are without repetitions, so it is enough that they have the same elements.
    rw [← List.perm_singleton]
    have hnodup : (field.givers members).Nodup := (List.Nodup.of_map _ hdistinct).filter _
    refine (List.perm_ext_iff_of_nodup hnodup (List.nodup_singleton _)).mpr ?_
    intro member
    rw [hmem, List.mem_singleton]
    constructor
    · rintro ⟨hmember, hmemberKey⟩
      have hfound := (Json.lookup_eq_some_iff_mem hdistinct).mpr hmember
      have heq : member.1 = key := by
        by_contra hne
        rw [hothers _ hmemberKey hne] at hfound
        cases hfound
      rw [heq, hlookup, Option.some_inj] at hfound
      exact Prod.ext heq hfound.symm
    · rintro rfl
      exact ⟨(Json.lookup_eq_some_iff_mem hdistinct).mp hlookup, hkey⟩

/-- Where keys are distinct, a field has the value that is found under one of its keys and under no
other, or its fallback if nothing is found. -/
theorem has_iff (hdistinct : (Json.keys members).Nodup) :
    field.Has members value ↔
      (∃ key ∈ field.keys, ∃ json, members.lookup key = some json ∧
        (∀ other ∈ field.keys, other ≠ key → members.lookup other = none) ∧
        field.read json = .ok value) ∨
      ((∀ key ∈ field.keys, members.lookup key = none) ∧ field.fallback = some value) := by
  constructor
  · rintro ⟨slot, hnil | ⟨hone, hread⟩, hvalue⟩
    · exact .inr ⟨givers_eq_nil_iff.mp hnil, hvalue⟩
    · obtain ⟨hkey, hlookup, hothers⟩ := (givers_eq_singleton_iff hdistinct).mp hone
      obtain rfl := Option.some.inj hvalue
      exact .inl ⟨_, hkey, _, hlookup, hothers, hread⟩
  · rintro (⟨key, hkey, json, hlookup, hothers, hread⟩ | ⟨hnone, hvalue⟩)
    · have hone := (givers_eq_singleton_iff hdistinct).mpr ⟨hkey, hlookup, hothers⟩
      exact ⟨some value, .given hone hread, rfl⟩
    · exact ⟨none, .absent (givers_eq_nil_iff.mpr hnone), hvalue⟩

/-- A field that goes by one key only has the value that is found there, or its fallback. -/
theorem has_iff_of_lone (hdistinct : (Json.keys members).Nodup)
    (hlone : field.otherName = none) :
    field.Has members value ↔
      (∃ json, members.lookup field.name = some json ∧ field.read json = .ok value) ∨
      (members.lookup field.name = none ∧ field.fallback = some value) := by
  rw [has_iff hdistinct, keys_of_lone hlone]
  simp

/-- A field that goes by two keys has the value that is found under one of them and not under the
other, or its fallback. -/
theorem has_iff_of_other {other : String} (hdistinct : (Json.keys members).Nodup)
    (hother : field.otherName = some other) (hne : field.name ≠ other) :
    field.Has members value ↔
      (∃ json, members.lookup field.name = some json ∧ members.lookup other = none ∧
        field.read json = .ok value) ∨
      (∃ json, members.lookup other = some json ∧ members.lookup field.name = none ∧
        field.read json = .ok value) ∨
      (members.lookup field.name = none ∧ members.lookup other = none ∧
        field.fallback = some value) := by
  have hkeys : field.keys = [field.name, other] := by
    rw [keys, hother]
    rfl
  rw [has_iff hdistinct, hkeys]
  simp [hne, hne.symm, and_assoc, or_assoc]

/-- A field that goes by one key only is given well unless it is found there and cannot be read. -/
theorem exists_gives_iff_of_lone (hdistinct : (Json.keys members).Nodup)
    (hlone : field.otherName = none) :
    (∃ slot, field.Gives members slot) ↔
      ∀ json, members.lookup field.name = some json → ∃ value, field.read json = .ok value := by
  constructor
  · rintro ⟨slot, hnil | ⟨hone, hread⟩⟩ json hjson
    · rw [givers_eq_nil_iff, keys_of_lone hlone, List.forall_mem_singleton, hjson] at hnil
      cases hnil
    · rw [givers_eq_singleton_iff hdistinct, keys_of_lone hlone, List.mem_singleton] at hone
      obtain ⟨rfl, hlookup, -⟩ := hone
      obtain rfl := Option.some.inj (hjson.symm.trans hlookup)
      exact ⟨_, hread⟩
  · intro h
    cases hlookup : members.lookup field.name with
    | none =>
      refine ⟨none, .absent ?_⟩
      rwa [givers_eq_nil_iff, keys_of_lone hlone, List.forall_mem_singleton]
    | some json =>
      obtain ⟨value, hread⟩ := h json hlookup
      have hone : field.givers members = [(field.name, json)] := by
        rw [givers_eq_singleton_iff hdistinct, keys_of_lone hlone]
        refine ⟨List.mem_singleton_self _, hlookup, ?_⟩
        intro other hother hne
        exact absurd (List.mem_singleton.mp hother) hne
      exact ⟨some value, .given hone hread⟩

section

variable (hdistinct : (Json.keys members).Nodup)
include hdistinct

/-- A field that takes a text, and has to be there. -/
theorem has_text_iff {text : String} :
    Has { name := key, read := Shape.readText } members text ↔
      members.lookup key = some (.string text) := by
  rw [has_iff_of_lone hdistinct rfl]
  simp

/-- A field that takes a text, and another one where there is none. -/
theorem has_textOr_iff {text other : String} :
    Has { name := key, read := Shape.readText, fallback := some other } members text ↔
      members.lookup key = some (.string text) ∨ members.lookup key = none ∧ text = other := by
  rw [has_iff_of_lone hdistinct rfl, eq_comm (a := text)]
  simp

/-- A field that takes any value, and null where there is none. -/
theorem has_any_iff :
    Has { name := key, read := Shape.readAny, fallback := some .null } members json ↔
      json = (members.lookup key).getD .null := by
  rw [has_iff_of_lone hdistinct rfl, eq_comm (a := json)]
  cases members.lookup key <;> simp [Shape.readAny]

end

end Field

namespace Fields

variable {α β : Type} {members others : Json.Members} {key : String} {json : Json}

/-- The keys that the fields go by. -/
def keys : {α : Type} → Fields α → List String
  | _, nil => []
  | _, cons field rest => field.keys ++ rest.keys

/-- What members give for the fields. -/
def Give : {α : Type} → (fields : Fields α) → Json.Members → fields.Slots → Prop
  | _, nil, _, _ => True
  | _, cons field rest, members, slots =>
    field.Gives members slots.head ∧ rest.Give members slots.tail

/-- The values that the fields have after members. -/
def Have : {α : Type} → Fields α → Json.Members → α → Prop
  | _, nil, _, _ => True
  | _, cons field rest, members, (value, values) =>
    field.Has members value ∧ rest.Have members values

/-- Where there are no members, nothing is given. -/
theorem give_nil_iff {fields : Fields α} {slots : fields.Slots} :
    fields.Give [] slots ↔ slots = fields.noneGiven := by
  induction fields with
  | nil => exact ⟨fun _ => rfl, fun _ => trivial⟩
  | cons field rest ih =>
    obtain ⟨slot, slots⟩ := slots
    have hslot : field.Gives [] slot ↔ slot = none := by
      constructor
      · rintro (_ | ⟨hgiven, -⟩)
        · rfl
        · cases hgiven
      · rintro rfl
        exact .absent rfl
    constructor
    · rintro ⟨hhead, htail⟩
      obtain rfl := hslot.mp hhead
      obtain rfl := ih.mp htail
      rfl
    · intro h
      obtain ⟨rfl, rfl⟩ := Prod.mk.inj h
      exact ⟨hslot.mpr rfl, ih.mpr rfl⟩

theorem give_concat_of_notMem {fields : Fields α} {slots : fields.Slots} (h : key ∉ fields.keys) :
    fields.Give (members ++ [(key, json)]) slots ↔ fields.Give members slots := by
  induction fields with
  | nil => exact Iff.rfl
  | cons field rest ih =>
    rw [keys, List.mem_append, not_or] at h
    exact and_congr (Field.gives_congr (.of_eq (Field.givers_concat_of_notMem h.1))) (ih h.2)

section

variable {field : Field α} {rest : Fields β} {slots next : (cons field rest).Slots}

/-- The field that goes by a key takes the member, if it has none yet and can read this one. -/
theorem take_cons_iff_of_mem (h : key ∈ field.keys) :
    (cons field rest).take slots key json = .ok (some next) ↔
      slots.head = none ∧ ∃ value, field.read json = .ok value ∧
        next = (some value, slots.tail) := by
  rw [take, if_pos (Field.goesBy_iff.mpr h)]
  cases slots.head with
  | some _ => exact ⟨nofun, nofun⟩
  | none =>
    cases field.read json with
    | error _ => exact ⟨nofun, nofun⟩
    | ok value =>
      constructor
      · intro h
        exact ⟨rfl, value, rfl, (Option.some.inj (Except.ok.inj h)).symm⟩
      · rintro ⟨-, _, hread, rfl⟩
        obtain rfl := Except.ok.inj hread
        rfl

/-- Where the field cannot read the member, this is the mismatch. -/
theorem take_cons_of_error {mismatch : Mismatch} (h : key ∈ field.keys) (hhead : slots.head = none)
    (hread : field.read json = .error mismatch) :
    (cons field rest).take slots key json = .error mismatch := by
  rw [take, if_pos (Field.goesBy_iff.mpr h), hhead, hread]
  rfl

theorem take_cons_iff_of_notMem (h : key ∉ field.keys) :
    (cons field rest).take slots key json = .ok (some next) ↔
      ∃ tail, rest.take slots.tail key json = .ok (some tail) ∧ next = (slots.head, tail) := by
  rw [take, if_neg (mt Field.goesBy_iff.mp h)]
  cases rest.take slots.tail key json with
  | error _ => exact ⟨nofun, nofun⟩
  | ok taken =>
    cases taken with
    | none => exact ⟨nofun, nofun⟩
    | some tail =>
      constructor
      · intro h
        exact ⟨tail, rfl, (Option.some.inj (Except.ok.inj h)).symm⟩
      · rintro ⟨_, htail, rfl⟩
        obtain rfl := Option.some.inj (Except.ok.inj htail)
        rfl

end

/-- A member is left exactly if no field goes by its key. -/
theorem take_eq_none_iff {fields : Fields α} {slots : fields.Slots} :
    fields.take slots key json = .ok none ↔ key ∉ fields.keys := by
  induction fields with
  | nil => exact ⟨fun _ => List.not_mem_nil, fun _ => rfl⟩
  | cons field rest ih =>
    rw [take, keys, List.mem_append, not_or, ← Field.goesBy_iff]
    by_cases hgoes : field.goesBy key = true
    · rw [if_pos hgoes]
      refine ⟨?_, fun h => absurd hgoes h.1⟩
      cases slots.head.isSome with
      | true => exact nofun
      | false => cases field.read json <;> exact nofun
    · have hrest : rest.take slots.tail key json = .ok none ↔ key ∉ rest.keys := ih
      rw [if_neg hgoes, and_iff_right hgoes, ← hrest]
      cases rest.take slots.tail key json with
      | error _ => exact ⟨nofun, nofun⟩
      | ok taken =>
        cases taken with
        | none => exact ⟨fun _ => rfl, fun _ => rfl⟩
        | some _ => exact ⟨nofun, nofun⟩

/-- One more member of a field is given exactly if, after those before it, its field takes it. -/
theorem give_concat_iff {fields : Fields α} {next : fields.Slots} (hkeys : fields.keys.Nodup)
    (hkey : key ∈ fields.keys) :
    fields.Give (members ++ [(key, json)]) next ↔
      ∃ slots, fields.Give members slots ∧ fields.take slots key json = .ok (some next) := by
  induction fields with
  | nil => cases hkey
  | cons field rest ih =>
    obtain ⟨slot, tail⟩ := next
    obtain ⟨-, hrest, hdisjoint⟩ := List.nodup_append.mp hkeys
    change field.Gives (members ++ [(key, json)]) slot ∧
      rest.Give (members ++ [(key, json)]) tail ↔ _
    by_cases hmem : key ∈ field.keys
    · -- No later field goes by the key.
      have hnot : key ∉ rest.keys := fun h => hdisjoint key hmem key h rfl
      rw [Field.gives_concat_iff hmem, give_concat_of_notMem hnot]
      constructor
      · rintro ⟨⟨hnone, value, hread, rfl⟩, htail⟩
        refine ⟨(none, tail), ⟨hnone, htail⟩, ?_⟩
        exact (take_cons_iff_of_mem hmem).mpr ⟨rfl, value, hread, rfl⟩
      · rintro ⟨⟨head, others⟩, ⟨hhead, hothers⟩, htake⟩
        obtain ⟨rfl, value, hread, hnext⟩ := (take_cons_iff_of_mem hmem).mp htake
        obtain ⟨rfl, rfl⟩ := Prod.mk.inj hnext
        exact ⟨⟨hhead, value, hread, rfl⟩, hothers⟩
    · -- The first field is passed over, and the others go on as they would without it.
      have hkey' : key ∈ rest.keys := (List.mem_append.mp hkey).resolve_left hmem
      rw [Field.gives_congr (.of_eq (Field.givers_concat_of_notMem hmem)), ih hrest hkey']
      constructor
      · rintro ⟨hslot, others, hothers, htake⟩
        refine ⟨(slot, others), ⟨hslot, hothers⟩, ?_⟩
        exact (take_cons_iff_of_notMem hmem).mpr ⟨tail, htake, rfl⟩
      · rintro ⟨⟨head, others⟩, ⟨hhead, hothers⟩, htake⟩
        obtain ⟨taken, htake, hnext⟩ := (take_cons_iff_of_notMem hmem).mp htake
        obtain ⟨rfl, rfl⟩ := Prod.mk.inj hnext
        exact ⟨hhead, others, hothers, htake⟩

theorem complete_cons_iff {field : Field α} {rest : Fields β} {slots : (cons field rest).Slots}
    {value : α} {values : β} :
    (cons field rest).complete slots = .ok (value, values) ↔
      slots.head.or field.fallback = some value ∧ rest.complete slots.tail = .ok values := by
  rw [complete]
  cases slots.head.or field.fallback with
  | none => exact ⟨nofun, nofun⟩
  | some own => cases rest.complete slots.tail <;> simp

/-- The fields have the values with which what the members give is completed. -/
theorem have_iff {fields : Fields α} {values : α} :
    fields.Have members values ↔
      ∃ slots, fields.Give members slots ∧ fields.complete slots = .ok values := by
  induction fields with
  | nil => exact ⟨fun _ => ⟨(), trivial, rfl⟩, fun _ => trivial⟩
  | cons field rest ih =>
    obtain ⟨value, values⟩ := values
    rw [Have, ih]
    constructor
    · rintro ⟨⟨slot, hslot, hvalue⟩, tail, htail, hvalues⟩
      exact ⟨(slot, tail), ⟨hslot, htail⟩, complete_cons_iff.mpr ⟨hvalue, hvalues⟩⟩
    · rintro ⟨⟨slot, tail⟩, ⟨hslot, htail⟩, hcomplete⟩
      obtain ⟨hvalue, hvalues⟩ := complete_cons_iff.mp hcomplete
      exact ⟨⟨slot, hslot, hvalue⟩, tail, htail, hvalues⟩

/-- Neither the order of members nor members of no field make a difference to the values. -/
theorem have_congr {fields : Fields α} {extra : Json.Members} {values : α}
    (hothers : others.Perm (members ++ extra)) (hextra : ∀ member ∈ extra, member.1 ∉ fields.keys) :
    fields.Have others values ↔ fields.Have members values := by
  induction fields with
  | nil => exact Iff.rfl
  | cons field rest ih =>
    simp only [keys, List.mem_append, not_or] at hextra
    -- The other members give nothing, and what gives the field may come in any order.
    have hnil : field.givers extra = [] := by
      refine List.filter_eq_nil_iff.mpr fun member hmember => ?_
      exact mt Field.goesBy_iff.mp (hextra member hmember).1
    have hgivers : (field.givers others).Perm (field.givers members) := by
      have hfilter := hothers.filter fun member => field.goesBy member.1
      rwa [List.filter_append, ← Field.givers, ← Field.givers, ← Field.givers, hnil,
        List.append_nil] at hfilter
    have hfield : field.Has others values.1 ↔ field.Has members values.1 :=
      exists_congr fun _ => and_congr_left' (Field.gives_congr hgivers)
    exact and_congr hfield (ih fun member hmember => (hextra member hmember).2)

end Fields

namespace Record

variable {α : Type} {record : Record α} {members : Json.Members} {key : String} {json : Json}

/-- No member is refused for its key. -/
def Admits (record : Record α) (members : Json.Members) : Prop :=
  record.closed = true → ∀ member ∈ members, member.1 ∈ record.fields.keys

theorem takeMembers_append (record : Record α) (front back : Json.Members)
    (slots : record.fields.Slots) :
    record.takeMembers (front ++ back) slots =
      record.takeMembers front slots >>= record.takeMembers back := by
  induction front generalizing slots with
  | nil => rfl
  | cons member rest ih =>
    obtain ⟨key, json⟩ := member
    rw [List.cons_append, takeMembers, takeMembers]
    cases record.fields.take slots key json with
    | error _ => rfl
    | ok taken =>
      cases taken with
      | some slots => exact ih slots
      | none =>
        by_cases hclosed : record.closed = true
        · rw [if_pos hclosed, if_pos hclosed]
          rfl
        · rw [if_neg hclosed, if_neg hclosed]
          exact ih slots

theorem takeMembers_singleton_of_mem {slots next : record.fields.Slots}
    (h : key ∈ record.fields.keys) :
    record.takeMembers [(key, json)] slots = .ok next ↔
      record.fields.take slots key json = .ok (some next) := by
  rw [takeMembers]
  cases htake : record.fields.take slots key json with
  | error _ => exact ⟨nofun, nofun⟩
  | ok taken =>
    cases taken with
    | none => exact absurd h (Fields.take_eq_none_iff.mp htake)
    | some taken =>
      change Except.ok taken = .ok next ↔ _
      rw [Except.ok.injEq, Except.ok.injEq, Option.some_inj]

theorem takeMembers_singleton_of_notMem {slots next : record.fields.Slots}
    (h : key ∉ record.fields.keys) :
    record.takeMembers [(key, json)] slots = .ok next ↔ record.closed ≠ true ∧ next = slots := by
  rw [takeMembers, Fields.take_eq_none_iff.mpr h]
  by_cases hclosed : record.closed = true
  · rw [if_pos hclosed]
    exact ⟨nofun, fun hopen => absurd hclosed hopen.1⟩
  · rw [if_neg hclosed, and_iff_right hclosed, takeMembers, Except.ok.injEq, eq_comm]

theorem admits_concat_iff :
    record.Admits (members ++ [(key, json)]) ↔
      record.Admits members ∧ (record.closed = true → key ∈ record.fields.keys) := by
  simp only [Admits, List.forall_mem_append, List.forall_mem_singleton, imp_and]

/-- Taking the members of an object succeeds exactly if each key is admitted, and no field is given
twice or with a value that it cannot read. -/
theorem takeMembers_eq_ok_iff {next : record.fields.Slots} (hkeys : record.fields.keys.Nodup) :
    record.takeMembers members record.fields.noneGiven = .ok next ↔
      record.Admits members ∧ record.fields.Give members next := by
  -- From the end, as whether a member is taken depends on those before it.
  induction members using List.reverseRecOn generalizing next with
  | nil =>
    rw [Fields.give_nil_iff, takeMembers, Except.ok.injEq, eq_comm]
    exact (and_iff_right fun _ => List.forall_mem_nil _).symm
  | append_singleton rest member ih =>
    obtain ⟨key, json⟩ := member
    have hsplit : record.takeMembers (rest ++ [(key, json)]) record.fields.noneGiven = .ok next ↔
        ∃ slots, (record.Admits rest ∧ record.fields.Give rest slots) ∧
          record.takeMembers [(key, json)] slots = .ok next := by
      rw [takeMembers_append]
      simp only [← ih]
      cases record.takeMembers rest record.fields.noneGiven with
      | error _ => exact ⟨nofun, nofun⟩
      | ok slots => simp [bind, Except.bind]
    rw [hsplit, admits_concat_iff]
    -- A key of no field is left, and all that counts is whether the record is closed.
    by_cases hkey : key ∈ record.fields.keys
    · simp only [takeMembers_singleton_of_mem hkey, Fields.give_concat_iff hkeys hkey, hkey,
        implies_true, and_true, and_assoc, exists_and_left]
    · simp only [takeMembers_singleton_of_notMem hkey, Fields.give_concat_of_notMem hkey, hkey]
      constructor
      · rintro ⟨slots, ⟨hadmits, hgive⟩, hopen, rfl⟩
        exact ⟨⟨hadmits, hopen⟩, hgive⟩
      · rintro ⟨⟨hadmits, hopen⟩, hgive⟩
        exact ⟨next, ⟨hadmits, hgive⟩, hopen, rfl⟩

/-- A record is read from an object exactly if each key is admitted and each field has a value. -/
theorem ofMembers_eq_ok_iff {values : α} (hkeys : record.fields.keys.Nodup) :
    record.ofMembers members = .ok values ↔
      record.Admits members ∧ record.fields.Have members values := by
  have hcomplete : record.ofMembers members = .ok values ↔
      ∃ slots, record.takeMembers members record.fields.noneGiven = .ok slots ∧
        record.fields.complete slots = .ok values := by
    rw [ofMembers]
    cases record.takeMembers members record.fields.noneGiven with
    | error _ => exact ⟨nofun, nofun⟩
    | ok slots => simp
  simp only [hcomplete, takeMembers_eq_ok_iff hkeys, Fields.have_iff, and_assoc, exists_and_left]

/-- A record that refuses no members is read from an object exactly if each field has a value. -/
theorem ofMembers_eq_ok_iff_of_open {values : α} (hkeys : record.fields.keys.Nodup)
    (hopen : record.closed = false) :
    record.ofMembers members = .ok values ↔ record.fields.Have members values := by
  have hadmits : record.Admits members := fun hclosed =>
    absurd (hopen.symm.trans hclosed) Bool.false_ne_true
  rw [ofMembers_eq_ok_iff hkeys, and_iff_right hadmits]

/-- Such a record is read alike from an object with other members besides, and in any order. -/
theorem ofMembers_congr {others extra : Json.Members} {values : α}
    (hkeys : record.fields.keys.Nodup) (hopen : record.closed = false)
    (hothers : others.Perm (members ++ extra))
    (hextra : ∀ member ∈ extra, member.1 ∉ record.fields.keys) :
    record.ofMembers others = .ok values ↔ record.ofMembers members = .ok values := by
  rw [ofMembers_eq_ok_iff_of_open hkeys hopen, ofMembers_eq_ok_iff_of_open hkeys hopen]
  exact Fields.have_congr hothers hextra

/-- The first member that is refused is what is wrong with an object, whatever comes after it. -/
theorem ofMembers_of_take_eq_error {before : Json.Members} {slots : record.fields.Slots}
    {mismatch : Mismatch}
    (hbefore : record.takeMembers before record.fields.noneGiven = .ok slots)
    (htake : record.fields.take slots key json = .error mismatch) (after : Json.Members) :
    record.ofMembers (before ++ (key, json) :: after) = .error mismatch := by
  have hmember : record.takeMembers ((key, json) :: after) slots = .error mismatch := by
    rw [takeMembers, htake]
  have hall : record.takeMembers (before ++ (key, json) :: after) record.fields.noneGiven =
      .error mismatch := by
    rw [takeMembers_append, hbefore]
    exact hmember
  rw [ofMembers, hall]

/-- Under which of its keys a field is given makes no difference. -/
theorem ofMembers_rename {other : String} (hkey : key ∈ record.fields.keys)
    (hsame : ∀ slots, record.fields.take slots key json = record.fields.take slots other json)
    (before after : Json.Members) :
    record.ofMembers (before ++ (key, json) :: after) =
      record.ofMembers (before ++ (other, json) :: after) := by
  have htake : ∀ slots, record.takeMembers ((key, json) :: after) slots =
      record.takeMembers ((other, json) :: after) slots := by
    intro slots
    rw [takeMembers, takeMembers, ← hsame]
    cases htaken : record.fields.take slots key json with
    | error _ => rfl
    | ok taken =>
      cases taken with
      | none => exact absurd hkey (Fields.take_eq_none_iff.mp htaken)
      | some _ => rfl
  rw [ofMembers, ofMembers, takeMembers_append, takeMembers_append, funext htake]

end Record

end ConfigDiagnostics
