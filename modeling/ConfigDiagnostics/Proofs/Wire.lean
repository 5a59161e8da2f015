import ConfigDiagnostics.Proofs.Record
import ConfigDiagnostics.Violation.Wire
import Mathlib.Data.List.Forall2

/-!
# Which objects are violations

A validator's object is read as a violation if its keyword is there and a text, its pointer goes by
one name only, each text is a text, and the one parameter of the keyword is in the right form. To be
absent is not the same as to be null: the pointer, the message and the parameter of a keyword may be
absent, but none of them may be null.

## Main definitions

* `Violation.IsShownAs`: the text that stands for an allowed value
* `Violation.Records`: the violation that the members of an object record
* `Violation.IsRecord`: what an object has to be like to record one
* `Violation.Reading`: what the reading of an object amounts to

## Main results

* `Violation.ofJson_object_iff`: what is read is what the object records
* `Violation.exists_records_iff`: which objects record a violation
* `Violation.reading_ofJson`: both together, and what makes no difference
-/

namespace ConfigDiagnostics.Violation

variable {members : Json.Members} {violation : Violation} {keyword : Keyword} {given value : Json}
  {params : Params} {raw : String}

/-- The names of the members that a violation's record may have. -/
def memberNames : List String :=
  ["dataPath", "instancePath", "keyword", "message", "params", "data"]

theorem nodup_keys_record : record.fields.keys.Nodup := by decide

/-- The pointer that an object gives: under one of two names, or the empty one. -/
inductive GivesPointer (members : Json.Members) : String → Prop
  | dataPath {raw : String} : members.lookup "dataPath" = some (.string raw) →
      members.lookup "instancePath" = none → GivesPointer members raw
  | instancePath {raw : String} : members.lookup "dataPath" = none →
      members.lookup "instancePath" = some (.string raw) → GivesPointer members raw
  | neither : members.lookup "dataPath" = none → members.lookup "instancePath" = none →
      GivesPointer members ""

/-- The text that an allowed value is shown as: a string as it is, any other value as its compact
JSON text. -/
inductive IsShownAs : Json → String → Prop
  | string {text : String} : IsShownAs (.string text) text
  | other {value : Json} : ¬ value.IsString → IsShownAs value value.compact

/-- The parameters of a keyword that a value gives. Only an object gives any, and each only for its
own keyword. -/
inductive GivesParams (given : Json) : Keyword → Params → Prop
  | additionalProperty {name : String} :
      given.get? "additionalProperty" = some (.string name) →
      GivesParams given .additionalProperties (.additionalProperty name)
  | noAdditionalProperty : given.get? "additionalProperty" = none →
      GivesParams given .additionalProperties .none
  | allowedValues {values : List Json} {texts : List String} :
      given.get? "allowedValues" = some (.array values) → List.Forall₂ IsShownAs values texts →
      GivesParams given .enum (.allowedValues texts)
  | noAllowedValues : given.get? "allowedValues" = none → GivesParams given .enum .none
  | other {keyword : Keyword} : keyword ≠ .additionalProperties → keyword ≠ .enum →
      GivesParams given keyword .none

/-- The members of an object record a violation. -/
structure Records (members : Json.Members) (violation : Violation) : Prop where
  pointer : GivesPointer members violation.pointer.raw
  keyword : ∃ name, members.lookup "keyword" = some (.string name) ∧
    violation.keyword = .ofName name
  message : members.lookup "message" = some (.string violation.message) ∨
    members.lookup "message" = none ∧ violation.message = ""
  params : GivesParams ((members.lookup "params").getD .null) violation.keyword violation.params
  data : violation.data = (members.lookup "data").getD .null

/-- What an object has to be like for it to record a violation. -/
structure IsRecord (members : Json.Members) : Prop where
  /-- The keyword is there, and a text. -/
  keyword : ∃ name, members.lookup "keyword" = some (.string name)
  /-- The pointer goes by one of its names at most. -/
  not_both : members.lookup "dataPath" = none ∨ members.lookup "instancePath" = none
  /-- The pointer is a text, where there is one. -/
  pointer : ∀ value, members.lookup "dataPath" = some value ∨
    members.lookup "instancePath" = some value → ∃ raw, value = .string raw
  /-- The message is a text, where there is one. -/
  message : ∀ value, members.lookup "message" = some value → ∃ text, value = .string text
  /-- A property that was not declared is named by a text. -/
  additionalProperty : members.lookup "keyword" = some (.string "additionalProperties") →
    ∀ given value, members.lookup "params" = some given →
    given.get? "additionalProperty" = some value → ∃ name, value = .string name
  /-- The values that were allowed are in an array. -/
  allowedValues : members.lookup "keyword" = some (.string "enum") →
    ∀ given value, members.lookup "params" = some given →
    given.get? "allowedValues" = some value → ∃ values, value = .array values

theorem isShownAs_iff {text : String} : IsShownAs value text ↔ text = value.displayed := by
  constructor
  · rintro (_ | hother)
    · rfl
    · exact (Json.displayed_of_not_isString hother).symm
  · rintro rfl
    by_cases h : value.IsString
    · obtain ⟨text⟩ := h
      exact .string
    · rw [Json.displayed_of_not_isString h]
      exact .other h

theorem forall₂_isShownAs_iff {values : List Json} {texts : List String} :
    List.Forall₂ IsShownAs values texts ↔ texts = values.map Json.displayed := by
  constructor
  · intro h
    induction h with
    | nil => rfl
    | cons hfirst _ ih => rw [List.map_cons, ← isShownAs_iff.mp hfirst, ← ih]
  · rintro rfl
    rw [List.forall₂_map_right_iff, List.forall₂_same]
    exact fun value _ => isShownAs_iff.mpr rfl

theorem readParams_eq_ok_iff :
    readParams keyword given = .ok params ↔ GivesParams given keyword params := by
  constructor
  · intro h
    -- First by the keyword, then by what is found for its parameter.
    unfold readParams at h
    split at h
    · split at h
      · rename_i hnone
        obtain rfl := Except.ok.inj h
        exact .noAdditionalProperty hnone
      · rename_i hsome
        obtain rfl := Except.ok.inj h
        exact .additionalProperty hsome
      · cases h
    · split at h
      · rename_i hnone
        obtain rfl := Except.ok.inj h
        exact .noAllowedValues hnone
      · rename_i hsome
        obtain rfl := Except.ok.inj h
        exact .allowedValues hsome (forall₂_isShownAs_iff.mpr rfl)
      · cases h
    · rename_i hproperties henum
      obtain rfl := Except.ok.inj h
      exact .other hproperties henum
  · intro h
    cases h with
    | additionalProperty hsome => simp only [readParams, Parameter.name, hsome]
    | noAdditionalProperty hnone => simp only [readParams, Parameter.name, hnone]
    | allowedValues hsome htexts =>
      obtain rfl := forall₂_isShownAs_iff.mp htexts
      simp only [readParams, Parameter.name, hsome]
    | noAllowedValues hnone => simp only [readParams, Parameter.name, hnone]
    | other hproperties henum =>
      cases keyword with
      | additionalProperties => exact absurd rfl hproperties
      | enum => exact absurd rfl henum
      | _ => rfl

section

variable (hdistinct : (Json.keys members).Nodup)
include hdistinct

theorem has_pointer_iff :
    Field.Has { name := "dataPath", otherName := some "instancePath", read := Shape.readText,
                fallback := some "" } members raw ↔ GivesPointer members raw := by
  rw [Field.has_iff_of_other hdistinct rfl (by decide)]
  simp only [Shape.readText_eq_ok_iff]
  constructor
  · rintro (⟨json, hdata, hinstance, rfl⟩ | ⟨json, hinstance, hdata, rfl⟩ |
      ⟨hdata, hinstance, hvalue⟩)
    · exact .dataPath hdata hinstance
    · exact .instancePath hdata hinstance
    · obtain rfl := Option.some.inj hvalue
      exact .neither hdata hinstance
  · rintro (⟨hdata, hinstance⟩ | ⟨hdata, hinstance⟩ | ⟨hdata, hinstance⟩)
    · exact .inl ⟨_, hdata, hinstance, rfl⟩
    · exact .inr (.inl ⟨_, hinstance, hdata, rfl⟩)
    · exact .inr (.inr ⟨hdata, hinstance, rfl⟩)

theorem have_record_iff {name message : String} {data : Json} :
    record.fields.Have members (raw, name, message, given, data, ()) ↔
      GivesPointer members raw ∧ members.lookup "keyword" = some (.string name) ∧
      (members.lookup "message" = some (.string message) ∨
        members.lookup "message" = none ∧ message = "") ∧
      given = (members.lookup "params").getD .null ∧
      data = (members.lookup "data").getD .null := by
  rw [← has_pointer_iff hdistinct, ← Field.has_text_iff hdistinct, ← Field.has_textOr_iff hdistinct,
    ← Field.has_any_iff hdistinct, ← Field.has_any_iff hdistinct]
  constructor
  · rintro ⟨hpointer, hname, hmessage, hgiven, hdata, -⟩
    exact ⟨hpointer, hname, hmessage, hgiven, hdata⟩
  · rintro ⟨hpointer, hname, hmessage, hgiven, hdata⟩
    exact ⟨hpointer, hname, hmessage, hgiven, hdata, trivial⟩

end

/-- A violation is read from a record whose keyword is its own and whose parameters can be read. -/
theorem ofJson_eq_ok_iff :
    ofJson value = .ok violation ↔
      ∃ name given, record.decode value =
          .ok (violation.pointer.raw, name, violation.message, given, violation.data, ()) ∧
        violation.keyword = .ofName name ∧
        readParams violation.keyword given = .ok violation.params := by
  rw [ofJson]
  cases record.decode value with
  | error _ => exact ⟨nofun, nofun⟩
  | ok values =>
    obtain ⟨raw, name, message, given, data, ⟨⟩⟩ := values
    constructor
    · intro h
      -- The record is decoded, and all depends on the parameters.
      cases hparams : readParams (.ofName name) given with
      | error _ => simp only [hparams, reduceCtorEq] at h
      | ok params =>
        simp only [hparams, Except.ok.injEq] at h
        subst h
        exact ⟨name, given, rfl, rfl, hparams⟩
    · rintro ⟨_, _, hvalues, hkeyword, hparams⟩
      obtain ⟨⟨pointer⟩, keyword, message, params, data⟩ := violation
      simp only [Except.ok.injEq, Prod.mk.injEq, and_true] at hvalues
      obtain ⟨rfl, rfl, rfl, rfl, rfl⟩ := hvalues
      simp only at hkeyword hparams
      subst hkeyword
      simp only [hparams]

theorem ofJson_object_iff (hdistinct : (Json.keys members).Nodup) :
    ofJson (.object members) = .ok violation ↔ Records members violation := by
  have hdecode : ∀ values, record.decode (.object members) = .ok values ↔
      record.fields.Have members values :=
    fun _ => Record.ofMembers_eq_ok_iff_of_open nodup_keys_record rfl
  simp only [ofJson_eq_ok_iff, hdecode, have_record_iff hdistinct, readParams_eq_ok_iff]
  constructor
  · rintro ⟨name, given, ⟨hpointer, hname, hmessage, rfl, hdata⟩, hkeyword, hparams⟩
    exact ⟨hpointer, ⟨name, hname, hkeyword⟩, hmessage, hparams, hdata⟩
  · rintro ⟨hpointer, ⟨name, hname, hkeyword⟩, hmessage, hparams, hdata⟩
    exact ⟨name, _, ⟨hpointer, hname, hmessage, rfl, hdata⟩, hkeyword, hparams⟩

theorem exists_givesPointer_iff :
    (∃ raw, GivesPointer members raw) ↔
      (members.lookup "dataPath" = none ∨ members.lookup "instancePath" = none) ∧
        ∀ value, members.lookup "dataPath" = some value ∨
          members.lookup "instancePath" = some value → ∃ raw, value = .string raw := by
  constructor
  · rintro ⟨raw, ⟨hdata, hinstance⟩ | ⟨hdata, hinstance⟩ | ⟨hdata, hinstance⟩⟩
    · refine ⟨.inr hinstance, ?_⟩
      rintro value (hvalue | hvalue)
      · exact ⟨raw, Option.some.inj (hvalue.symm.trans hdata)⟩
      · cases hvalue.symm.trans hinstance
    · refine ⟨.inl hdata, ?_⟩
      rintro value (hvalue | hvalue)
      · cases hvalue.symm.trans hdata
      · exact ⟨raw, Option.some.inj (hvalue.symm.trans hinstance)⟩
    · refine ⟨.inl hdata, ?_⟩
      rintro value (hvalue | hvalue)
      · cases hvalue.symm.trans hdata
      · cases hvalue.symm.trans hinstance
  · rintro ⟨hnot, htext⟩
    cases hdata : members.lookup "dataPath" with
    | some value =>
      obtain ⟨raw, rfl⟩ := htext value (.inl hdata)
      have hinstance := hnot.resolve_left (by simp [hdata])
      exact ⟨raw, .dataPath hdata hinstance⟩
    | none =>
      cases hinstance : members.lookup "instancePath" with
      | some value =>
        obtain ⟨raw, rfl⟩ := htext value (.inr hinstance)
        exact ⟨raw, .instancePath hdata hinstance⟩
      | none => exact ⟨"", .neither hdata hinstance⟩

/-- Only a parameter of the keyword's own can be in the wrong form. -/
theorem exists_givesParams_iff :
    (∃ params, GivesParams given keyword params) ↔
      (keyword = .additionalProperties → ∀ value, given.get? "additionalProperty" = some value →
        ∃ name, value = .string name) ∧
      (keyword = .enum → ∀ value, given.get? "allowedValues" = some value →
        ∃ values, value = .array values) := by
  constructor
  · rintro ⟨params, h⟩
    cases h with
    | additionalProperty hsome =>
      exact ⟨fun _ _ hvalue => ⟨_, Option.some.inj (hvalue.symm.trans hsome)⟩, nofun⟩
    | noAdditionalProperty hnone =>
      exact ⟨fun _ _ hvalue => absurd (hvalue.symm.trans hnone) nofun, nofun⟩
    | allowedValues hsome _ =>
      exact ⟨nofun, fun _ _ hvalue => ⟨_, Option.some.inj (hvalue.symm.trans hsome)⟩⟩
    | noAllowedValues hnone =>
      exact ⟨nofun, fun _ _ hvalue => absurd (hvalue.symm.trans hnone) nofun⟩
    | other hproperties henum =>
      exact ⟨fun h => absurd h hproperties, fun h => absurd h henum⟩
  · rintro ⟨hproperty, hvalues⟩
    by_cases hproperties : keyword = .additionalProperties
    · subst hproperties
      cases hget : given.get? "additionalProperty" with
      | none => exact ⟨_, .noAdditionalProperty hget⟩
      | some value =>
        obtain ⟨name, rfl⟩ := hproperty rfl value hget
        exact ⟨_, .additionalProperty hget⟩
    · by_cases henum : keyword = .enum
      · subst henum
        cases hget : given.get? "allowedValues" with
        | none => exact ⟨_, .noAllowedValues hget⟩
        | some value =>
          obtain ⟨values, rfl⟩ := hvalues rfl value hget
          exact ⟨_, .allowedValues hget (forall₂_isShownAs_iff.mpr rfl)⟩
      · exact ⟨_, .other hproperties henum⟩

theorem exists_records_iff : (∃ violation, Records members violation) ↔ IsRecord members := by
  constructor
  · rintro ⟨violation, h⟩
    obtain ⟨name, hname, hkeyword⟩ := h.keyword
    obtain ⟨hnot, htext⟩ := exists_givesPointer_iff.mp ⟨_, h.pointer⟩
    -- What is asked of the parameters is asked by the name of the keyword, which is the one found.
    obtain ⟨hproperty, hvalues⟩ := exists_givesParams_iff.mp ⟨_, h.params⟩
    refine ⟨⟨name, hname⟩, hnot, htext, ?_, ?_, ?_⟩
    · intro value hvalue
      rcases h.message with hmessage | ⟨hnone, -⟩
      · exact ⟨_, Option.some.inj (hvalue.symm.trans hmessage)⟩
      · cases hvalue.symm.trans hnone
    · intro hown given value hgiven hvalue
      rw [hname, Option.some_inj, Json.string.injEq] at hown
      rw [hown] at hkeyword
      rw [hgiven] at hproperty
      exact hproperty hkeyword value hvalue
    · intro hown given value hgiven hvalue
      rw [hname, Option.some_inj, Json.string.injEq] at hown
      rw [hown] at hkeyword
      rw [hgiven] at hvalues
      exact hvalues hkeyword value hvalue
  · intro h
    obtain ⟨name, hname⟩ := h.keyword
    obtain ⟨raw, hpointer⟩ := exists_givesPointer_iff.mpr ⟨h.not_both, h.pointer⟩
    obtain ⟨params, hparams⟩ :
        ∃ params, GivesParams ((members.lookup "params").getD .null) (.ofName name) params := by
      -- Where there are no parameters at all, there are none of the keyword.
      cases hgiven : members.lookup "params" with
      | none => exact exists_givesParams_iff.mpr ⟨fun _ _ => nofun, fun _ _ => nofun⟩
      | some given =>
        refine exists_givesParams_iff.mpr ⟨?_, ?_⟩
        · intro hkeyword value hvalue
          rw [← Keyword.name_ofName name, hkeyword] at hname
          exact h.additionalProperty hname given value hgiven hvalue
        · intro hkeyword value hvalue
          rw [← Keyword.name_ofName name, hkeyword] at hname
          exact h.allowedValues hname given value hgiven hvalue
    cases hmessage : members.lookup "message" with
    | none =>
      exact ⟨⟨⟨raw⟩, .ofName name, "", params, _⟩,
        hpointer, ⟨name, hname, rfl⟩, .inr ⟨hmessage, rfl⟩, hparams, rfl⟩
    | some value =>
      obtain ⟨message, rfl⟩ := h.message value hmessage
      exact ⟨⟨⟨raw⟩, .ofName name, message, params, _⟩,
        hpointer, ⟨name, hname, rfl⟩, .inl hmessage, hparams, rfl⟩

/-- Neither the order of members nor members by other names make a difference. -/
theorem ofJson_object_congr {others extra : Json.Members}
    (hothers : others.Perm (members ++ extra)) (hextra : ∀ member ∈ extra, member.1 ∉ memberNames) :
    ofJson (.object others) = .ok violation ↔ ofJson (.object members) = .ok violation := by
  have hdecode : ∀ values, record.decode (.object others) = .ok values ↔
      record.decode (.object members) = .ok values :=
    fun _ => Record.ofMembers_congr nodup_keys_record rfl hothers hextra
  simp only [ofJson_eq_ok_iff, hdecode]

theorem ofJson_rename {name other : String} (hname : name ∈ ["dataPath", "instancePath"])
    (hother : other ∈ ["dataPath", "instancePath"]) (before after : Json.Members) (value : Json) :
    ofJson (.object (before ++ (name, value) :: after)) =
      ofJson (.object (before ++ (other, value) :: after)) := by
  have hdata : "dataPath" ∈ record.fields.keys := by decide
  have htake : ∀ slots, record.fields.take slots "dataPath" value =
      record.fields.take slots "instancePath" value := fun _ => rfl
  have hdecode : record.decode (.object (before ++ ("dataPath", value) :: after)) =
      record.decode (.object (before ++ ("instancePath", value) :: after)) :=
    Record.ofMembers_rename hdata htake before after
  rcases List.mem_pair.mp hname with rfl | rfl
  · rcases List.mem_pair.mp hother with rfl | rfl
    · rfl
    · rw [ofJson, ofJson, hdecode]
  · rcases List.mem_pair.mp hother with rfl | rfl
    · rw [ofJson, ofJson, hdecode]
    · rfl

/-- What the reading of a violation from an object amounts to. -/
structure Reading (members : Json.Members) : Prop where
  /-- An object is read exactly if it is a record. -/
  exists_ok_iff : (∃ violation, ofJson (.object members) = .ok violation) ↔ IsRecord members
  /-- What is read is what the object records. -/
  ok_iff : ∀ violation, ofJson (.object members) = .ok violation ↔ Records members violation
  /-- The order of members makes no difference to it, nor do members by other names. -/
  ok_of_perm : ∀ violation, ofJson (.object members) = .ok violation → ∀ extra others,
    (∀ member ∈ extra, member.1 ∉ memberNames) → others.Perm (members ++ extra) →
    ofJson (.object others) = .ok violation
  /-- Both names of the pointer are read alike. -/
  rename : ∀ name other, name ∈ ["dataPath", "instancePath"] →
    other ∈ ["dataPath", "instancePath"] → ∀ before value after,
    members = before ++ (name, value) :: after →
    ofJson (.object members) = ofJson (.object (before ++ (other, value) :: after))

/-- An object with distinct keys is read as a violation so. -/
theorem reading_ofJson (hdistinct : (Json.keys members).Nodup) : Reading members where
  exists_ok_iff := by
    rw [← exists_records_iff]
    exact exists_congr fun _ => ofJson_object_iff hdistinct
  ok_iff _ := ofJson_object_iff hdistinct
  ok_of_perm _ h _ _ hextra hothers := (ofJson_object_congr hothers hextra).mpr h
  rename _ _ hname hother before value after h := by
    rw [h]
    exact ofJson_rename hname hother before after value

/-- An object with a name that counts for nothing, its members in no particular order. Of the values
that are allowed one is a text, and so is part of another. -/
theorem reading_ofJson_enum :
    (Json.keys [("data", .string "es4"), ("note", .bool true), ("keyword", .string "enum"),
      ("params", .object [("allowedValues",
        .array [.string "es5", .null, .array [.bool false, .string "es6"]])]),
      ("instancePath", .string "/target")]).Nodup ∧
    ofJson (.object [("data", .string "es4"), ("note", .bool true), ("keyword", .string "enum"),
      ("params", .object [("allowedValues",
        .array [.string "es5", .null, .array [.bool false, .string "es6"]])]),
      ("instancePath", .string "/target")]) =
      .ok ⟨⟨"/target"⟩, .enum, "", .allowedValues ["es5", "null", "[false,\"es6\"]"],
        .string "es4"⟩ := by
  refine ⟨by decide, ((reading_ofJson (by decide)).ok_iff _).mpr ?_⟩
  have hshown : List.Forall₂ IsShownAs [.string "es5", .null, .array [.bool false, .string "es6"]]
      ["es5", "null", "[false,\"es6\"]"] :=
    .cons .string (.cons (.other nofun) (.cons (.other nofun) .nil))
  exact ⟨.instancePath rfl rfl, ⟨"enum", rfl, rfl⟩, .inr ⟨rfl, rfl⟩,
    .allowedValues rfl hshown, rfl⟩

end ConfigDiagnostics.Violation
