import ConfigDiagnostics.Proofs.EventName
import ConfigDiagnostics.Text.Pattern
import Mathlib.Logic.Function.Basic

/-!
# Reading and spelling event names

An event name is some text on one line, then the separator, then the word for a kind. The topic may
have separators in it and may itself read like a name. Still a text can be taken apart in one way
only: an ending has no second separator in it, and neither ending is the end of the other.

## Main definitions

* `EventName.pattern`: the form of names
* `EventName.Reads`: what the reading of a text amounts to

## Main results

* `EventName.fits_pattern_iff`: a text fits the pattern just where it names an event
* `EventName.length_le_of_append_separator`: a topic ends at the last separator
* `EventName.text_injective`: two names are never spelled alike
* `EventName.reads_ofName`: reading and spelling are inverse to each other
-/

namespace ConfigDiagnostics.EventName

/-- The form of names. -/
def pattern : Pattern :=
  .sequence (.part "topic" (.repeated .anyOnLine))
    (.sequence (.literal "::error::")
      (.part "kind" (.either (.literal "json") (.literal "schema"))))

/-- The parts of a name. -/
def parts (event : EventName) : List (String × List Char) :=
  [("topic", event.topic.toList), ("kind", event.kind.word.toList)]

theorem toList_ending (kind : EventKind) :
    (ending kind).toList = "::error::".toList ++ kind.word.toList :=
  String.toList_append

/-- The words for kinds, as a part of names. -/
theorem fits_kind_iff {chars : List Char} {parts : List (String × List Char)} :
    (Pattern.either (.literal "json") (.literal "schema")).Fits chars parts ↔
      ∃ kind : EventKind, chars = kind.word.toList ∧ parts = [] := by
  rw [Pattern.fits_either_iff, Pattern.fits_literal_iff, Pattern.fits_literal_iff]
  constructor
  · rintro (h | h)
    · exact ⟨.json, h⟩
    · exact ⟨.schema, h⟩
  · rintro ⟨kind, h⟩
    cases kind with
    | json => exact .inl h
    | schema => exact .inr h

/-- What can stand before the separator. -/
theorem fits_topic_iff {chars : List Char} {parts : List (String × List Char)} :
    (Pattern.part "topic" (.repeated .anyOnLine)).Fits chars parts ↔
      IsTopic chars ∧ parts = [("topic", chars)] := by
  rw [Pattern.fits_part_iff]
  constructor
  · intro h
    obtain ⟨inner, hinner, hparts⟩ := h
    obtain ⟨htopic, rfl⟩ := Pattern.fits_repeated_anyOnLine_iff.mp hinner
    exact ⟨htopic, hparts⟩
  · intro h
    obtain ⟨htopic, hparts⟩ := h
    exact ⟨[], Pattern.fits_repeated_anyOnLine_iff.mpr ⟨htopic, rfl⟩, hparts⟩

/-- The separator and a word for a kind are one of the endings. -/
theorem fits_ending_iff {chars : List Char} {parts : List (String × List Char)} :
    (Pattern.sequence (.literal "::error::")
        (.part "kind" (.either (.literal "json") (.literal "schema")))).Fits chars parts ↔
      ∃ kind : EventKind, chars = (ending kind).toList ∧
        parts = [("kind", kind.word.toList)] := by
  simp only [Pattern.fits_sequence_iff, Pattern.fits_literal_iff, Pattern.fits_part_iff,
    fits_kind_iff, toList_ending]
  constructor
  · intro h
    obtain ⟨_, _, _, _, ⟨rfl, rfl⟩, ⟨_, ⟨kind, rfl, rfl⟩, rfl⟩, hchars, hparts⟩ := h
    exact ⟨kind, hchars, hparts⟩
  · intro h
    obtain ⟨kind, hchars, hparts⟩ := h
    exact ⟨_, _, _, _, ⟨rfl, rfl⟩, ⟨_, ⟨kind, rfl, rfl⟩, rfl⟩, hchars, hparts⟩

/-- A text fits the pattern just where it names an event, and its parts are those of the event. -/
theorem fits_pattern_iff {text : String} {parts : List (String × List Char)} :
    pattern.Fits text.toList parts ↔
      ∃ event : EventName, event.Names text ∧ parts = event.parts := by
  rw [pattern, Pattern.fits_sequence_iff]
  constructor
  · intro h
    obtain ⟨topic, back, frontParts, backParts, hfront, hback, htext, rfl⟩ := h
    obtain ⟨htopic, rfl⟩ := fits_topic_iff.mp hfront
    obtain ⟨kind, rfl, rfl⟩ := fits_ending_iff.mp hback
    refine ⟨⟨String.ofList topic, kind⟩, ⟨?_, ?_⟩, ?_⟩
    · rw [← String.toList_inj, toList_text, String.toList_ofList]
      exact htext.symm
    · rwa [String.toList_ofList]
    · rw [EventName.parts, String.toList_ofList]
      rfl
  · intro h
    obtain ⟨event, hevent, rfl⟩ := h
    have hfront := fits_topic_iff.mpr ⟨hevent.isTopic, rfl⟩
    have hback := fits_ending_iff.mpr ⟨event.kind, rfl, rfl⟩
    have htext : text.toList = event.topic.toList ++ (ending event.kind).toList := by
      rw [← hevent.text_eq, toList_text]
    exact ⟨_, _, _, _, hfront, hback, htext, rfl⟩

/-- After its first character an ending has three colons left, and a separator has four. -/
theorem count_tail_ending_lt (kind : EventKind) :
    (ending kind).toList.tail.count ':' < "::error::".toList.count ':' := by
  cases kind with
  | json => decide
  | schema => decide

/-- A topic ends at the last separator: none begins later. -/
theorem length_le_of_append_separator {topic before after : List Char} {kind : EventKind}
    (h : topic ++ (ending kind).toList = before ++ ("::error::".toList ++ after)) :
    before.length ≤ topic.length := by
  rcases List.append_eq_append_iff.mp h with ⟨gap, hbefore, hending⟩ | ⟨gap, htopic, -⟩
  · cases gap with
    | nil => exact Nat.le_of_eq (by rw [hbefore, List.append_nil])
    | cons c gap =>
      -- A later separator would be inside of the ending, which has too few colons for it.
      have hinfix : "::error::".toList <:+: (ending kind).toList.tail := by
        rw [hending, List.cons_append, List.tail_cons]
        exact ⟨gap, after, List.append_assoc ..⟩
      have hcount := hinfix.sublist.count_le ':'
      exact absurd (count_tail_ending_lt kind) (Nat.not_lt.mpr hcount)
  · rw [htopic, List.length_append]
    exact Nat.le_add_right ..

/-- Two names are never spelled alike. -/
theorem text_injective : Function.Injective EventName.text := by
  rintro ⟨topic, kind⟩ ⟨other, otherKind⟩ h
  have hchars := congrArg String.toList h
  rw [toList_text, toList_text] at hchars
  have hkind : kind = otherKind := by
    cases kind with
    | json =>
      cases otherKind with
      | json => rfl
      | schema => exact absurd hchars (append_ending_json_ne _ _)
    | schema =>
      cases otherKind with
      | json => exact absurd hchars.symm (append_ending_json_ne _ _)
      | schema => rfl
  subst hkind
  have htopic := String.toList_inj.mp (List.append_cancel_right hchars)
  exact congrArg (mk · kind) htopic

theorem isTopic_toList_iff {topic : String} :
    IsTopic topic.toList ↔ topic ≠ "" ∧ '\n' ∉ topic.toList := by
  rw [IsTopic, Ne, String.toList_eq_nil_iff]

theorem names_mk_iff {topic text : String} {kind : EventKind} :
    Names ⟨topic, kind⟩ text ↔
      text = topic ++ "::error::" ++ kind.word ∧ topic ≠ "" ∧ '\n' ∉ topic.toList := by
  rw [← isTopic_toList_iff, String.append_assoc]
  exact ⟨fun h => ⟨h.text_eq.symm, h.isTopic⟩, fun h => ⟨h.1.symm, h.2⟩⟩

/-- To end as a name does is to have the separator and then the word for a kind. -/
theorem eq_append_or_iff {topic text : String} :
    (text = topic ++ "::error::json" ∨ text = topic ++ "::error::schema") ↔
      ∃ kind : EventKind, text = topic ++ "::error::" ++ kind.word := by
  simp only [String.append_assoc]
  constructor
  · rintro (h | h)
    · exact ⟨.json, h⟩
    · exact ⟨.schema, h⟩
  · rintro ⟨kind, h⟩
    cases kind with
    | json => exact .inl h
    | schema => exact .inr h

/-- Only the topic of a name decides whether its spelling is read back. -/
theorem names_text_iff {event : EventName} : event.Names event.text ↔ IsTopic event.topic.toList :=
  ⟨fun h => h.isTopic, fun h => ⟨rfl, h⟩⟩

theorem ofName_text (event : EventName) :
    ofName event.text =
      if IsTopic event.topic.toList then .ok event else .error (.unknownName event.text) := by
  by_cases htopic : IsTopic event.topic.toList
  · rw [if_pos htopic]
    exact ofName_eq_ok_iff.mpr (names_text_iff.mpr htopic)
  · rw [if_neg htopic]
    refine ofName_eq_error_iff.mpr ⟨?_, rfl⟩
    -- No other event has this spelling either.
    intro other hother
    obtain rfl := text_injective hother.text_eq
    exact htopic hother.isTopic

/-- What the reading of a text amounts to. -/
structure Reads (text : String) (result : Except EventError EventName) : Prop where
  /-- A text names an event exactly if it is some line, followed by one of two endings. -/
  exists_ok_iff : (∃ event, result = .ok event) ↔ ∃ topic,
    (text = topic ++ "::error::json" ∨ text = topic ++ "::error::schema") ∧
      topic ≠ "" ∧ '\n' ∉ topic.toList
  /-- The line is the topic, and the ending has the kind. -/
  ok_iff : ∀ topic kind, result = .ok ⟨topic, kind⟩ ↔
    text = topic ++ "::error::" ++ kind.word ∧ topic ≠ "" ∧ '\n' ∉ topic.toList
  /-- The topic is all that stands before the last separator. -/
  length_le : ∀ event, result = .ok event → ∀ before after,
    text = before ++ "::error::" ++ after → before.length ≤ event.topic.length
  /-- The text is the spelling of its event. -/
  text_eq : ∀ event, result = .ok event → event.text = text
  /-- A text that names no event is given in the error. -/
  error_eq : ∀ error, result = .error error → error = .unknownName text
  /-- The text fits the pattern exactly if it names an event, and only in one way. -/
  fits_iff : ∀ parts, pattern.Fits text.toList parts ↔
    ∃ event, result = .ok event ∧ parts = event.parts

theorem reads_ofName (text : String) : Reads text (ofName text) where
  exists_ok_iff := by
    simp only [eq_append_or_iff]
    constructor
    · intro h
      obtain ⟨⟨topic, kind⟩, hevent⟩ := h
      obtain ⟨htext, htopic⟩ := names_mk_iff.mp (ofName_eq_ok_iff.mp hevent)
      exact ⟨topic, ⟨kind, htext⟩, htopic⟩
    · intro h
      obtain ⟨topic, ⟨kind, htext⟩, htopic⟩ := h
      exact ⟨⟨topic, kind⟩, ofName_eq_ok_iff.mpr (names_mk_iff.mpr ⟨htext, htopic⟩)⟩
  ok_iff topic kind := ofName_eq_ok_iff.trans names_mk_iff
  length_le event hevent before after h := by
    have hchars := congrArg String.toList ((ofName_eq_ok_iff.mp hevent).text_eq.trans h)
    rw [toList_text, String.toList_append, String.toList_append, List.append_assoc] at hchars
    rw [← String.length_toList, ← String.length_toList]
    exact length_le_of_append_separator hchars
  text_eq event hevent := (ofName_eq_ok_iff.mp hevent).text_eq
  error_eq error herror := (ofName_eq_error_iff.mp herror).2
  fits_iff parts := by
    simp only [fits_pattern_iff, ofName_eq_ok_iff]

/-- Reading takes every text apart so; it undoes spelling just where the topic is a line, and two
names are never spelled alike. -/
theorem reading_undoes_spelling :
    (∀ text, Reads text (ofName text)) ∧
      (∀ event : EventName, ofName event.text =
        if event.topic ≠ "" ∧ '\n' ∉ event.topic.toList then .ok event
        else .error (.unknownName event.text)) ∧
      Function.Injective EventName.text := by
  refine ⟨reads_ofName, ?_, text_injective⟩
  intro event
  rw [ofName_text]
  simp only [isTopic_toList_iff]

/-- The topic of a name may read like a name. -/
example : ofName "a::error::json::error::schema" = .ok ⟨"a::error::json", .schema⟩ :=
  (ofName_text ⟨"a::error::json", .schema⟩).trans (if_pos (by decide))

end ConfigDiagnostics.EventName
