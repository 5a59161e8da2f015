import ConfigDiagnostics.Finding
import ConfigDiagnostics.Proofs.Wire
import Mathlib.Data.List.Forall2

/-!
# Payloads about a violated schema

A payload is read if it names the resource and all of its violations can be read. One that cannot be
read is enough to refuse all, and the first of them is what the error is about: what comes after it,
in the array or in the object, is not even looked at.

## Main definitions

* `Finding.GivesViolations`: the violations that an object gives
* `Finding.PayloadReading`: what the reading of a payload amounts to

## Main results

* `Shape.readList_eq_ok_iff`, `Shape.readList_of_first`: a list is read item by item, up to the
  first that cannot be read
* `Finding.ofPayload_schema_object_iff`: which objects are read, and as what
* `Finding.payloadReading`: both together, and what makes no difference
-/

namespace ConfigDiagnostics

namespace Shape

variable {α : Type} {readItem : Json → Except Mismatch α} {items good rest : List Json} {bad : Json}
  {values : List α} {mismatch : Mismatch}

theorem readList_cons_of_ok {item : Json} {value : α} (h : readItem item = .ok value) :
    readList readItem (.array (item :: rest)) =
      (readList readItem (.array rest)).map (value :: ·) := by
  rw [readList, readList, List.mapM_cons, h]
  cases rest.mapM readItem <;> rfl

theorem readList_cons_of_error {item : Json} (h : readItem item = .error mismatch) :
    readList readItem (.array (item :: rest)) = .error mismatch := by
  rw [readList, List.mapM_cons, h]
  rfl

/-- A list is read item by item. -/
theorem readList_array_eq_ok_iff :
    readList readItem (.array items) = .ok values ↔
      List.Forall₂ (fun item value => readItem item = .ok value) items values := by
  induction items generalizing values with
  | nil =>
    rw [List.forall₂_nil_left_iff]
    exact ⟨fun h => (Except.ok.inj h).symm, fun h => h ▸ rfl⟩
  | cons item rest ih =>
    simp only [List.forall₂_cons_left_iff, ← ih]
    cases hitem : readItem item with
    | error _ =>
      rw [readList_cons_of_error hitem]
      constructor
      · exact nofun
      · rintro ⟨_, _, hread, -⟩
        cases hread
    | ok value =>
      rw [readList_cons_of_ok hitem]
      constructor
      · intro h
        cases hrest : readList readItem (.array rest) with
        | error _ =>
          rw [hrest] at h
          cases h
        | ok others =>
          rw [hrest] at h
          exact ⟨value, others, rfl, rfl, (Except.ok.inj h).symm⟩
      · rintro ⟨_, others, hread, hrest, rfl⟩
        obtain rfl := Except.ok.inj hread
        rw [hrest]
        rfl

theorem readList_eq_ok_iff {json : Json} :
    readList readItem json = .ok values ↔ ∃ items, json = .array items ∧
      List.Forall₂ (fun item value => readItem item = .ok value) items values := by
  simp only [← readList_array_eq_ok_iff]
  constructor
  · intro h
    cases json with
    | array items => exact ⟨items, rfl, h⟩
    | _ => cases h
  · rintro ⟨items, rfl, h⟩
    exact h

/-- A list can be read if each of its items can. -/
theorem exists_forall₂_iff :
    (∃ values, List.Forall₂ (fun item value => readItem item = .ok value) items values) ↔
      ∀ item ∈ items, ∃ value, readItem item = .ok value := by
  induction items with
  | nil => exact ⟨fun _ => nofun, fun _ => ⟨[], .nil⟩⟩
  | cons item rest ih =>
    rw [List.forall_mem_cons, ← ih]
    constructor
    · rintro ⟨_, hfirst | ⟨hfirst, hrest⟩⟩
      exact ⟨⟨_, hfirst⟩, _, hrest⟩
    · rintro ⟨⟨value, hfirst⟩, values, hrest⟩
      exact ⟨value :: values, .cons hfirst hrest⟩

/-- The first item that cannot be read is what is wrong with a list, whatever comes after it. -/
theorem readList_of_first (hgood : ∀ item ∈ good, ∃ value, readItem item = .ok value)
    (hbad : readItem bad = .error mismatch) (rest : List Json) :
    readList readItem (.array (good ++ bad :: rest)) = .error mismatch := by
  induction good with
  | nil => exact readList_cons_of_error hbad
  | cons item good ih =>
    rw [List.forall_mem_cons] at hgood
    obtain ⟨value, hvalue⟩ := hgood.1
    rw [List.cons_append, readList_cons_of_ok hvalue, ih hgood.2]
    rfl

/-- Among items that cannot all be read there is a first one that cannot. -/
theorem exists_first (h : ∃ item ∈ items, ∀ value, readItem item ≠ .ok value) :
    ∃ good bad rest mismatch, items = good ++ bad :: rest ∧
      (∀ item ∈ good, ∃ value, readItem item = .ok value) ∧ readItem bad = .error mismatch := by
  induction items with
  | nil =>
    obtain ⟨_, hmem, -⟩ := h
    cases hmem
  | cons item rest ih =>
    cases hitem : readItem item with
    | error mismatch => exact ⟨[], item, rest, mismatch, rfl, nofun, hitem⟩
    | ok value =>
      -- The item that cannot be read is among the others.
      have hrest : ∃ item ∈ rest, ∀ value, readItem item ≠ .ok value := by
        obtain ⟨other, hmem, hother⟩ := h
        rcases List.mem_cons.mp hmem with rfl | hmem
        · exact absurd hitem (hother value)
        · exact ⟨other, hmem, hother⟩
      obtain ⟨good, bad, left, mismatch, rfl, hgood, hbad⟩ := ih hrest
      refine ⟨item :: good, bad, left, mismatch, rfl, ?_, hbad⟩
      exact List.forall_mem_cons.mpr ⟨⟨value, hitem⟩, hgood⟩

end Shape

namespace Finding

variable {members : Json.Members} {event : EventName} {topic resource : String}
  {found : List Violation} {finding : Finding} {payload : Json} {mismatch : Mismatch}

theorem nodup_keys_violationsRecord : violationsRecord.fields.keys.Nodup := by decide

theorem ofEvent_eq_ok_iff :
    ofEvent event payload = .ok finding ↔ ofPayload event.kind payload = .ok finding := by
  rw [ofEvent]
  cases ofPayload event.kind payload with
  | error _ => constructor <;> intro h <;> cases h
  | ok _ => exact ⟨fun h => congrArg _ (Except.ok.inj h), fun h => congrArg _ (Except.ok.inj h)⟩

theorem ofEvent_of_error (h : ofPayload event.kind payload = .error mismatch) :
    ofEvent event payload = .error (.unfitPayload event mismatch) := by
  rw [ofEvent, h]
  rfl

theorem ofPayload_schema_eq_ok_iff :
    ofPayload .schema payload = .ok finding ↔
      ∃ resource found, finding = violations resource found ∧
        violationsRecord.decode payload = .ok (found, resource, ()) := by
  rw [ofPayload]
  cases violationsRecord.decode payload with
  | error _ =>
    constructor
    · intro h
      cases h
    · rintro ⟨_, _, -, h⟩
      cases h
  | ok values =>
    obtain ⟨found, resource, ⟨⟩⟩ := values
    constructor
    · intro h
      exact ⟨resource, found, (Except.ok.inj h).symm, rfl⟩
    · rintro ⟨_, _, rfl, h⟩
      obtain ⟨rfl, rfl, -⟩ := Except.ok.inj h
      rfl

theorem ofPayload_schema_of_error (h : violationsRecord.decode payload = .error mismatch) :
    ofPayload .schema payload = .error mismatch := by
  rw [ofPayload, h]

/-- The violations that an object gives: each item of the array is one, in order. -/
inductive GivesViolations (members : Json.Members) : List Violation → Prop
  | items {items : List Json} {found : List Violation} :
      members.lookup "errors" = some (.array items) →
      List.Forall₂ (fun item violation => Violation.ofJson item = .ok violation) items found →
      GivesViolations members found
  | absent : members.lookup "errors" = none → GivesViolations members []

section

variable (hdistinct : (Json.keys members).Nodup)
include hdistinct

/-- A finding is read from an object that names the resource and gives violations. -/
theorem ofPayload_schema_object_iff :
    ofPayload .schema (.object members) = .ok finding ↔
      ∃ resource found, finding = violations resource found ∧
        members.lookup "resource" = some (.string resource) ∧ GivesViolations members found := by
  have hfound : ∀ found, Field.Has { name := "errors", read := Shape.readList Violation.ofJson,
                                     fallback := some [] } members found ↔
      GivesViolations members found := by
    intro found
    rw [Field.has_iff_of_lone hdistinct rfl]
    simp only [Shape.readList_eq_ok_iff]
    constructor
    · rintro (⟨json, hlookup, items, rfl, hitems⟩ | ⟨hnone, hvalue⟩)
      · exact .items hlookup hitems
      · obtain rfl := Option.some.inj hvalue
        exact .absent hnone
    · rintro (⟨hlookup, hitems⟩ | hnone)
      · exact .inl ⟨_, hlookup, _, rfl, hitems⟩
      · exact .inr ⟨hnone, rfl⟩
  have hdecode : ∀ resource found,
      violationsRecord.decode (.object members) = .ok (found, resource, ()) ↔
        members.lookup "resource" = some (.string resource) ∧ GivesViolations members found := by
    intro resource found
    rw [← Field.has_text_iff hdistinct, ← hfound]
    refine (Record.ofMembers_eq_ok_iff_of_open nodup_keys_violationsRecord rfl).trans ?_
    constructor
    · rintro ⟨herrors, hresource, -⟩
      exact ⟨hresource, herrors⟩
    · rintro ⟨hresource, herrors⟩
      exact ⟨herrors, hresource, trivial⟩
  simp only [ofPayload_schema_eq_ok_iff, hdecode]

/-- Members without violations are all taken, unless the resource is no text. -/
theorem exists_takeMembers_violationsRecord (herrors : "errors" ∉ Json.keys members)
    (hresource : ∀ json, ("resource", json) ∈ members → ∃ resource, json = .string resource) :
    ∃ slots, violationsRecord.takeMembers members violationsRecord.fields.noneGiven = .ok slots ∧
      slots.head = none := by
  have hread : ∃ slot, Field.Gives { name := "resource", read := Shape.readText } members slot := by
    refine (Field.exists_gives_iff_of_lone hdistinct rfl).mpr ?_
    intro json hlookup
    obtain ⟨resource, rfl⟩ := hresource json ((Json.lookup_eq_some_iff_mem hdistinct).mp hlookup)
    exact ⟨resource, rfl⟩
  obtain ⟨slot, hslot⟩ := hread
  -- With the resource read, if it is there, the slot of the violations is still free.
  have hnone : Field.Gives { name := "errors", read := Shape.readList Violation.ofJson,
                             fallback := some [] } members none := by
    refine .absent (Field.givers_eq_nil_iff.mpr ?_)
    exact List.forall_mem_singleton.mpr (Json.lookup_eq_none_iff.mpr herrors)
  refine ⟨(none, slot, ()), ?_, rfl⟩
  exact (Record.takeMembers_eq_ok_iff nodup_keys_violationsRecord).mpr
    ⟨nofun, hnone, hslot, trivial⟩

end

/-- The first violation that cannot be read is what is wrong with a payload. -/
theorem ofPayload_schema_of_first {before after : Json.Members} {items : List Json}
    (hdistinct : (Json.keys before).Nodup) (herrors : "errors" ∉ Json.keys before)
    (hresource : ∀ json, ("resource", json) ∈ before → ∃ resource, json = .string resource)
    (hitems : Shape.readList Violation.ofJson (.array items) = .error mismatch) :
    ofPayload .schema (.object (before ++ ("errors", .array items) :: after)) =
      .error mismatch := by
  obtain ⟨slots, hbefore, hhead⟩ :=
    exists_takeMembers_violationsRecord hdistinct herrors hresource
  have htake : violationsRecord.fields.take slots "errors" (.array items) = .error mismatch :=
    Fields.take_cons_of_error (by decide) hhead hitems
  exact ofPayload_schema_of_error (Record.ofMembers_of_take_eq_error hbefore htake after)

theorem exists_givesViolations_iff :
    (∃ found, GivesViolations members found) ↔
      ∀ json, members.lookup "errors" = some json → ∃ items, json = .array items ∧
        ∀ item ∈ items, ∃ violation, Violation.ofJson item = .ok violation := by
  constructor
  · rintro ⟨found, ⟨hlookup, hitems⟩ | hnone⟩ json hjson
    · obtain rfl := Option.some.inj (hjson.symm.trans hlookup)
      exact ⟨_, rfl, Shape.exists_forall₂_iff.mp ⟨found, hitems⟩⟩
    · cases hjson.symm.trans hnone
  · intro h
    cases hlookup : members.lookup "errors" with
    | none => exact ⟨[], .absent hlookup⟩
    | some json =>
      obtain ⟨items, rfl, hitems⟩ := h json hlookup
      obtain ⟨found, hfound⟩ := Shape.exists_forall₂_iff.mpr hitems
      exact ⟨found, .items hlookup hfound⟩

/-- What the reading of a payload about a violated schema amounts to. -/
structure PayloadReading (topic : String) (members : Json.Members) : Prop where
  /-- An object has a finding exactly if its resource is there and a text, and its violations, where
  there are any, are in an array and can all be read. -/
  exists_ok_iff : (∃ finding, ofEvent ⟨topic, .schema⟩ (.object members) = .ok finding) ↔
    (∃ resource, members.lookup "resource" = some (.string resource)) ∧
      ∀ json, members.lookup "errors" = some json → ∃ items, json = .array items ∧
        ∀ item ∈ items, ∃ violation, Violation.ofJson item = .ok violation
  /-- The finding is about the resource and has the violations, one for each item, in order. -/
  ok_iff : ∀ finding, ofEvent ⟨topic, .schema⟩ (.object members) = .ok finding ↔
    ∃ resource found, finding = violations resource found ∧
      members.lookup "resource" = some (.string resource) ∧ GivesViolations members found
  /-- The order of members makes no difference to it, nor do members by other names. -/
  ok_of_perm : ∀ finding, ofEvent ⟨topic, .schema⟩ (.object members) = .ok finding →
    ∀ extra others, (∀ member ∈ extra, member.1 ∉ ["errors", "resource"]) →
    others.Perm (members ++ extra) → ofEvent ⟨topic, .schema⟩ (.object others) = .ok finding
  /-- If no member before the violations is refused, the first violation that cannot be read is what
  is wrong, whatever the items and members after it. -/
  error_of_first : ∀ before items after, members = before ++ ("errors", .array items) :: after →
    (∀ json, ("resource", json) ∈ before → ∃ resource, json = .string resource) →
    (∃ item ∈ items, ∀ violation, Violation.ofJson item ≠ .ok violation) →
    ∃ good bad rest mismatch, items = good ++ bad :: rest ∧
      (∀ item ∈ good, ∃ violation, Violation.ofJson item = .ok violation) ∧
      Violation.ofJson bad = .error mismatch ∧
      ∀ rest after, ofEvent ⟨topic, .schema⟩
          (.object (before ++ ("errors", .array (good ++ bad :: rest)) :: after)) =
        .error (.unfitPayload ⟨topic, .schema⟩ mismatch)
  /-- The error names the event, and says what is wrong with the violation. -/
  message_eq : ∀ mismatch, (EventError.unfitPayload ⟨topic, .schema⟩ mismatch).message =
    "malformed payload for '" ++ (topic ++ "::error::schema") ++ "': " ++ mismatch.message

/-- A payload with distinct keys is read so. -/
theorem payloadReading (topic : String) (hdistinct : (Json.keys members).Nodup) :
    PayloadReading topic members where
  exists_ok_iff := by
    simp only [ofEvent_eq_ok_iff, ofPayload_schema_object_iff hdistinct,
      ← exists_givesViolations_iff]
    constructor
    · rintro ⟨_, resource, found, -, hresource, hfound⟩
      exact ⟨⟨resource, hresource⟩, found, hfound⟩
    · rintro ⟨⟨resource, hresource⟩, found, hfound⟩
      exact ⟨_, resource, found, rfl, hresource, hfound⟩
  ok_iff _ := by rw [ofEvent_eq_ok_iff, ofPayload_schema_object_iff hdistinct]
  ok_of_perm finding h extra others hextra hothers := by
    rw [ofEvent_eq_ok_iff, ofPayload_schema_eq_ok_iff] at h ⊢
    obtain ⟨resource, found, hfinding, hdecode⟩ := h
    refine ⟨resource, found, hfinding, ?_⟩
    exact (Record.ofMembers_congr nodup_keys_violationsRecord rfl hothers hextra).mpr hdecode
  error_of_first before items after hmembers hresource hitems := by
    obtain ⟨good, bad, rest, mismatch, rfl, hgood, hbad⟩ := Shape.exists_first hitems
    refine ⟨good, bad, rest, mismatch, rfl, hgood, hbad, ?_⟩
    intro others later
    -- The keys before the violations are distinct, and none of them is theirs.
    rw [hmembers, Json.keys, List.map_append, List.map_cons, List.nodup_middle,
      List.nodup_cons, List.mem_append, not_or] at hdistinct
    have hbefore := hdistinct.2.of_append_left
    have hread := Shape.readList_of_first hgood hbad others
    exact ofEvent_of_error (ofPayload_schema_of_first hbefore hdistinct.1.1 hresource hread)
  message_eq _ := rfl

/-- A payload whose first violation can be read. The second has no keyword, and that is all that is
wrong: the third, which is no record, and the resource, which is no text, are not looked at. -/
theorem payloadReading_missingKeyword :
    (Json.keys [("note", .null), ("errors", .array [.object [("keyword", .string "type")],
      .object [("message", .string "is wrong")], .null]), ("resource", .null)]).Nodup ∧
    Violation.ofJson (.object [("keyword", .string "type")]) =
      .ok ⟨⟨""⟩, .type, "", .none, .null⟩ ∧
    ofEvent ⟨"babel-config", .schema⟩
      (.object [("note", .null), ("errors", .array [.object [("keyword", .string "type")],
        .object [("message", .string "is wrong")], .null]), ("resource", .null)]) =
      .error (.unfitPayload ⟨"babel-config", .schema⟩ (.missingField "keyword")) := by
  have hkeys : (Json.keys [("note", .null), ("errors", .array [.object [("keyword",
    .string "type")], .object [("message", .string "is wrong")], .null]),
    ("resource", .null)]).Nodup := by decide
  obtain ⟨good, bad, rest, mismatch, hitems, hgood, hbad, herror⟩ :=
    (payloadReading "babel-config" hkeys).error_of_first [("note", .null)] _
      [("resource", .null)] rfl (by simp)
      ⟨.object [("message", .string "is wrong")], by simp, fun _ => nofun⟩
  refine ⟨hkeys, rfl, ?_⟩
  -- The first violation is read and the second is not, so that is the one.
  rcases good with _ | ⟨first, _ | ⟨second, good⟩⟩
  · obtain ⟨rfl, -⟩ := List.cons.inj hitems
    cases hbad
  · obtain ⟨rfl, hlater⟩ := List.cons.inj hitems
    obtain ⟨rfl, rfl⟩ := List.cons.inj hlater
    obtain rfl := Except.error.inj hbad
    exact herror [.null] [("resource", .null)]
  · obtain ⟨rfl, hlater⟩ := List.cons.inj hitems
    obtain ⟨rfl, -⟩ := List.cons.inj hlater
    obtain ⟨_, hread⟩ := hgood _ (List.mem_cons_of_mem _ List.mem_cons_self)
    cases hread

end Finding

end ConfigDiagnostics
