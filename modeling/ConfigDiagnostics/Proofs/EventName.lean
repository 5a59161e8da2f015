import ConfigDiagnostics.Finding

/-!
# The grammar of event names

A text names an event if it is the event's spelling and the event's topic can be read back. The
kind is what comes last, and neither ending is the end of the other, so a text names one event at
most.

## Main definitions

* `EventName.Names`: an event has a text as its name

## Main results

* `EventName.ofText?_eq_some_iff`: reading a name finds the event that has it
* `EventName.ofName_eq_error_iff`: a text is refused exactly when it names no event
-/

namespace ConfigDiagnostics.EventName

/-- The text is the spelling of the event, whose topic is some text on one line. -/
structure Names (event : EventName) (text : String) : Prop where
  text_eq : event.text = text
  isTopic : IsTopic event.topic.toList

/-- What is read as a topic is what stands before the ending of the kind. -/
theorem topic?_eq_some_iff {kind : EventKind} {chars topic : List Char} :
    topic? kind chars = some topic ↔ chars = topic ++ (ending kind).toList ∧ IsTopic topic := by
  simp only [topic?]
  constructor
  · intro h
    split at h
    · rename_i hsuffix
      -- What stands before the ending is what is left after as many characters are dropped.
      obtain ⟨front, rfl⟩ := hsuffix
      rw [List.length_append, Nat.add_sub_cancel, List.take_left] at h
      split at h
      · rename_i htopic
        obtain rfl := Option.some.inj h
        exact ⟨rfl, htopic⟩
      · cases h
    · cases h
  · rintro ⟨rfl, htopic⟩
    have hsuffix := List.suffix_append topic (ending kind).toList
    rw [if_pos hsuffix, List.length_append, Nat.add_sub_cancel, List.take_left, if_pos htopic]

/-- No text ends as names of both kinds do. -/
theorem append_ending_json_ne (topic other : List Char) :
    topic ++ (ending .json).toList ≠ other ++ (ending .schema).toList := by
  intro h
  have hjson : (ending .json).toList.getLast? = some 'n' := by decide
  have hschema : (ending .schema).toList.getLast? = some 'a' := by decide
  -- The two endings differ in their last character already.
  have hlast := congrArg List.getLast? h
  rw [List.getLast?_append, List.getLast?_append, hjson, hschema, Option.some_or,
    Option.some_or] at hlast
  exact absurd (Option.some.inj hlast) (by decide)

theorem topic?_schema_eq_none {chars topic : List Char}
    (h : chars = topic ++ (ending .schema).toList) : topic? .json chars = none := by
  cases hjson : topic? .json chars with
  | none => rfl
  | some other =>
    have hother := (topic?_eq_some_iff.mp hjson).1
    exact absurd (hother.symm.trans h) (append_ending_json_ne other topic)

theorem toList_text (event : EventName) :
    event.text.toList = event.topic.toList ++ (ending event.kind).toList :=
  String.toList_append

theorem names_iff {event : EventName} {text : String} :
    event.Names text ↔ topic? event.kind text.toList = some event.topic.toList := by
  rw [topic?_eq_some_iff, ← toList_text, String.toList_inj]
  exact ⟨fun h => ⟨h.text_eq.symm, h.isTopic⟩, fun h => ⟨h.1.symm, h.2⟩⟩

/-- Reading a name finds the event that has it, and nothing in a text that is no name. -/
theorem ofText?_eq_some_iff {text : String} {event : EventName} :
    ofText? text = some event ↔ event.Names text := by
  constructor
  · intro h
    unfold ofText? at h
    split at h
    · rename_i topic htopic
      obtain rfl := Option.some.inj h
      rwa [names_iff, String.toList_ofList]
    · split at h
      · rename_i topic htopic
        obtain rfl := Option.some.inj h
        rwa [names_iff, String.toList_ofList]
      · cases h
  · intro h
    have htopic := names_iff.mp h
    obtain ⟨topic, kind⟩ := event
    cases kind with
    | json =>
      rw [ofText?, htopic]
      exact congrArg (fun topic => some (mk topic .json)) String.ofList_toList
    | schema =>
      -- The other kind is tried first, and does not fit.
      rw [ofText?, topic?_schema_eq_none (topic?_eq_some_iff.mp htopic).1, htopic]
      exact congrArg (fun topic => some (mk topic .schema)) String.ofList_toList

/-- A text names one event at most. -/
theorem Names.unique {event other : EventName} {text : String} (h : event.Names text)
    (hother : other.Names text) : event = other :=
  Option.some.inj ((ofText?_eq_some_iff.mpr h).symm.trans (ofText?_eq_some_iff.mpr hother))

theorem ofName_eq_ok_iff {name : String} {event : EventName} :
    ofName name = .ok event ↔ event.Names name := by
  rw [← ofText?_eq_some_iff, ofName]
  cases ofText? name with
  | none => exact ⟨nofun, nofun⟩
  | some found => rw [Except.ok.injEq, Option.some_inj]

/-- A text is refused exactly when it names no event. -/
theorem ofName_eq_error_iff {name : String} {error : EventError} :
    ofName name = .error error ↔ (∀ event : EventName, ¬ event.Names name) ∧
      error = .unknownName name := by
  have hok : ∀ event, ofName name = .ok event ↔ event.Names name := fun _ => ofName_eq_ok_iff
  simp only [← hok]
  unfold ofName
  cases ofText? name with
  | none => exact ⟨fun h => ⟨fun _ => nofun, (Except.error.inj h).symm⟩, fun h => h.2 ▸ rfl⟩
  | some found => exact ⟨nofun, fun h => absurd rfl (h.1 found)⟩

end ConfigDiagnostics.EventName
