import ConfigDiagnostics.Engine
import ConfigDiagnostics.Proofs.Validation
import ConfigDiagnostics.Sink.Collecting

/-!
# Capacities that documents set and channels have

A document may set the capacity to any positive integer of a word. A channel has room for fewer
events than that, and an engine whose channel would be larger cannot make it: it runs over no
events, whatever its registry and its sinks are.

## Main definitions

* `Settings.IsAccepted`: the settings are those of some document
* `Engine.Opening`: what becomes of an engine with given settings

## Main results

* `Settings.capacity_le_of_decode`, `Settings.exists_accepted_iff`: the capacities of documents
* `Engine.isSome_run?_iff`: an engine runs exactly if its channel can be made
* `Engine.opening_of_isAccepted`: an engine with the settings of a document
* `Engine.run?_eq_none_of_accepted`: settings of a document with which an engine does not run
-/

namespace ConfigDiagnostics

theorem Field.Has.read_or_fallback {α : Type} {field : Field α} {members : Json.Members} {value : α}
    (h : field.Has members value) :
    (∃ json, field.read json = .ok value) ∨ field.fallback = some value := by
  obtain ⟨_, hnone | ⟨-, hread⟩, hvalue⟩ := h
  · exact .inr hvalue
  · obtain rfl := Option.some.inj hvalue
    exact .inl ⟨_, hread⟩

namespace Settings

variable {document : Json} {settings : Settings} {capacity : Nat} {rules : Json.Members}

/-- The settings are those of a document, which is given as a value or as a text. -/
def IsAccepted (settings : Settings) : Prop :=
  (∃ document, ofJson document = .ok settings) ∨ ∃ text, ofText text = .ok settings

theorem IsAccepted.exists_ofJson (h : settings.IsAccepted) :
    ∃ document, ofJson document = .ok settings := by
  obtain hdocument | ⟨text, htext⟩ := h
  · exact hdocument
  · obtain ⟨document, -, hdocument⟩ := ofText_eq_ok_iff.mp htext
    exact ⟨document, hdocument⟩

/-- A capacity is read from an integer of a word, or is the default. -/
theorem capacity_le_of_decode (h : record.decode document = .ok (capacity, rules, ())) :
    capacity ≤ 2 ^ 64 - 1 := by
  have hread : (∃ json, Shape.readCount json = .ok capacity) ∨ defaultCapacity = capacity := by
    cases document with
    | object members =>
      obtain ⟨-, hcapacity, -⟩ := (Record.ofMembers_eq_ok_iff nodup_keys_record).mp h
      exact hcapacity.read_or_fallback.imp_right Option.some.inj
    | array items =>
      obtain ⟨-, hcapacity, -⟩ := decode_array_iff.mp h
      rcases isCapacity_iff.mp hcapacity with ⟨json, -, hread⟩ | ⟨-, hdefault⟩
      · exact .inl ⟨json, hread⟩
      · exact .inr (Option.some.inj hdefault)
    | _ => cases h
  rcases hread with ⟨json, hjson⟩ | rfl
  · obtain ⟨integer, rfl, hvalue⟩ := Shape.readCount_eq_ok_iff.mp hjson
    have hgreatest := integer.le_greatest
    rw [hvalue, Json.greatestInteger] at hgreatest
    omega
  · decide

/-- Any positive integer of a word is the capacity of some document, and no other number is. -/
theorem exists_accepted_iff :
    (∃ settings : Settings, settings.IsAccepted ∧ settings.capacity = capacity) ↔
      0 < capacity ∧ capacity ≤ 2 ^ 64 - 1 := by
  constructor
  · rintro ⟨settings, haccepted, rfl⟩
    obtain ⟨document, h⟩ := haccepted.exists_ofJson
    obtain ⟨rules, hdecode, -⟩ := ofJson_eq_ok_iff.mp h
    exact ⟨settings.capacity_pos, capacity_le_of_decode hdecode⟩
  · rintro ⟨hpos, hle⟩
    have hgreatest : (capacity : Int) ≤ Json.greatestInteger := by
      rw [Json.greatestInteger]
      omega
    have hleast : Json.leastInteger ≤ capacity := by
      rw [Json.leastInteger]
      omega
    let members : Json.Members :=
      [("channelCapacity", .integer ⟨capacity, hleast, hgreatest⟩)]
    have hdistinct : (Json.keys members).Nodup := List.nodup_singleton _
    have hdecode : record.decode (.object members) = .ok (capacity, [], ()) :=
      (decode_object_iff hdistinct).mpr
        ⟨List.forall_mem_singleton.mpr (.inl rfl), .given rfl, .absent⟩
    have h : ofJson (.object members) = .ok { capacity, capacity_pos := hpos } :=
      ofJson_eq_ok_iff.mpr ⟨[], hdecode, nofun, rfl⟩
    exact ⟨_, .inl ⟨_, h⟩, rfl⟩

end Settings

namespace Engine

variable {ι σ : Type} [DecidableEq ι]

theorem isSome_run?_iff (engine : Engine) (sink : Sink σ) (registry : Registry ι)
    (events : List Announcement) (states : ι → σ) :
    (engine.run? sink registry events states).isSome = true ↔
      CanOpen engine.settings.capacity := by
  rw [run?]
  split
  · rename_i hopen
    exact iff_of_true rfl hopen
  · rename_i hopen
    exact iff_of_false Bool.false_ne_true hopen

/-- What becomes of an engine with given settings. -/
structure Opening (settings : Settings) : Prop where
  /-- The capacity is a positive integer of a word. -/
  capacity_mem : 0 < settings.capacity ∧ settings.capacity ≤ 2 ^ 64 - 1
  /-- A new engine makes its channel exactly if the capacity is within the limit of channels,
  whatever its registry, its sinks and the events are. -/
  isSome_run?_iff : ∀ {ι σ : Type} [DecidableEq ι] (sink : Sink σ) (registry : Registry ι)
    (events : List Announcement) (states : ι → σ),
    (run? { settings } sink registry events states).isSome = true ↔
      settings.capacity ≤ 2 ^ 61 - 1

/-- An engine with the settings of a document makes its channel up to the limit of channels. -/
theorem opening_of_isAccepted {settings : Settings} (haccepted : settings.IsAccepted) :
    Opening settings where
  capacity_mem := Settings.exists_accepted_iff.mp ⟨settings, haccepted, rfl⟩
  isSome_run?_iff sink registry events states := by
    rw [isSome_run?_iff]
    exact and_iff_right settings.capacity_pos

/-- An engine with the settings of a document that sets the greatest capacity of a channel. -/
theorem opening_of_isAccepted_greatest :
    Settings.IsAccepted { capacity := 2305843009213693951, capacity_pos := by decide } ∧
    (run? { settings := { capacity := 2305843009213693951, capacity_pos := by decide } }
      Collecting.report ({} : Registry Unit) [] (fun _ => {})).isSome = true := by
  have haccepted :
      Settings.IsAccepted { capacity := 2305843009213693951, capacity_pos := by decide } :=
    .inl ⟨.object [("channelCapacity", .integer ⟨2305843009213693951, by decide, by decide⟩)], rfl⟩
  exact ⟨haccepted, ((opening_of_isAccepted haccepted).isSome_run?_iff _ _ _ _).mpr (by decide)⟩

/-- A document may set the capacity to one more than the limit, and an engine does not run then. -/
theorem run?_eq_none_of_accepted :
    Settings.ofJson
        (.object [("channelCapacity", .integer ⟨2305843009213693952, by decide, by decide⟩)]) =
      .ok { capacity := 2305843009213693952, capacity_pos := by decide } ∧
    run? { settings := { capacity := 2305843009213693952, capacity_pos := by decide } }
      Collecting.report ({} : Registry Unit) [] (fun _ => {}) = none := by
  refine ⟨rfl, ?_⟩
  rw [← Option.not_isSome_iff_eq_none, isSome_run?_iff]
  decide

end Engine

end ConfigDiagnostics
