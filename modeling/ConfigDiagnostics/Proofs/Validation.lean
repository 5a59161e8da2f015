import ConfigDiagnostics.Proofs.Positional
import ConfigDiagnostics.Proofs.Reading
import Mathlib.Algebra.Group.Int.Defs
import Mathlib.Algebra.Group.Nat.Defs

/-!
# Which settings a document has

A document is looked at in three steps, and the first that finds something wrong decides: whether it
has the form of settings, then whether its capacity is positive, then, rule by rule in the order of
the document, whether the rules are given options that they take. What a later step would have found
does not show.

## Main definitions

* `Settings.Says`: what a document says of the capacity and of the rules
* `Settings.IsCapacity`, `Settings.AreRules`: the capacity and the rules that this means
* `Settings.Verdict`: what becomes of a document
* `Settings.Validation`: what the validation of a document amounts to
* `Settings.GivesOptions`: a document gives a rule options
* `Settings.OptionsAccount`: when a value is taken as options

## Main results

* `Settings.decode_record_iff`: which documents have the form of settings
* `Settings.ofJson_eq_iff`: validation comes to the verdict
* `Settings.nodup_rules_of_ofText`: a text names each rule once
* `Settings.validation_ofJson`: when a document is refused, for what, and which settings it has
* `Settings.optionsAccount`: which options rules are given in a document that is accepted
-/

namespace ConfigDiagnostics.Settings

variable {document : Json} {members rules : Json.Members} {items : List Json} {capacity : Nat}
  {settings : Settings} {options : Json} {rule : String} {mismatch : Mismatch}
  {error : SettingsError} {saidCapacity saidRules : Option Json}

theorem nodup_keys_record : record.fields.keys.Nodup := by decide

theorem readsAlike_record : record.ReadsAlike ["channelCapacity", "rules"] :=
  Record.readsAlike nodup_keys_record

/-! ### The form of a document -/

/-- What a document says of the capacity and of the rules, if anything: by name, in an object that
has no other members, or by position, in an array of no more than two items. -/
inductive Says : Json → Option Json → Option Json → Prop
  | byName {members : Json.Members} :
      (∀ key ∈ Json.keys members, key = "channelCapacity" ∨ key = "rules") →
      Says (.object members) (members.lookup "channelCapacity") (members.lookup "rules")
  | byPosition {items : List Json} : items.length ≤ 2 → Says (.array items) items[0]? items[1]?

/-- The capacity, by what is said of it. -/
inductive IsCapacity : Option Json → Nat → Prop
  | given {integer : Json.Integer} {capacity : Nat} : integer.value = capacity →
      IsCapacity (some (.integer integer)) capacity
  | absent : IsCapacity none 64

/-- The rules and what each is given as options, by what is said of them. -/
inductive AreRules : Option Json → Json.Members → Prop
  | given {rules : Json.Members} : AreRules (some (.object rules)) rules
  | absent : AreRules none []

theorem Says.unique {otherCapacity otherRules : Option Json}
    (h : Says document saidCapacity saidRules) (h' : Says document otherCapacity otherRules) :
    saidCapacity = otherCapacity ∧ saidRules = otherRules := by
  cases h <;> cases h' <;> exact ⟨rfl, rfl⟩

theorem isCapacity_iff :
    IsCapacity saidCapacity capacity ↔
      (∃ json, saidCapacity = some json ∧ Shape.readCount json = .ok capacity) ∨
        saidCapacity = none ∧ some defaultCapacity = some capacity := by
  simp only [Shape.readCount_eq_ok_iff]
  constructor
  · rintro (⟨hvalue⟩ | _)
    · exact .inl ⟨_, rfl, _, rfl, hvalue⟩
    · exact .inr ⟨rfl, rfl⟩
  · rintro (⟨_, rfl, integer, rfl, hvalue⟩ | ⟨rfl, hvalue⟩)
    · exact .given hvalue
    · obtain rfl := Option.some.inj hvalue
      exact .absent

theorem areRules_iff :
    AreRules saidRules rules ↔
      (∃ json, saidRules = some json ∧ Shape.readMap json = .ok rules) ∨
        saidRules = none ∧ some [] = some rules := by
  simp only [Shape.readMap_eq_ok_iff]
  constructor
  · rintro (_ | _)
    · exact .inl ⟨_, rfl, rfl⟩
    · exact .inr ⟨rfl, rfl⟩
  · rintro (⟨_, rfl, rfl⟩ | ⟨rfl, hvalue⟩)
    · exact .given
    · obtain rfl := Option.some.inj hvalue
      exact .absent

theorem exists_isCapacity_iff :
    (∃ capacity, IsCapacity saidCapacity capacity) ↔
      ∀ json, saidCapacity = some json → ∃ integer : Json.Integer, json = .integer integer ∧
        0 ≤ integer.value ∧ integer.value ≤ 2 ^ 64 - 1 := by
  constructor
  · rintro ⟨capacity, ⟨hvalue⟩ | _⟩ json hjson
    · obtain rfl := Option.some.inj hjson
      exact ⟨_, rfl, hvalue ▸ Int.natCast_nonneg _, Json.Integer.le_greatest _⟩
    · cases hjson
  · intro h
    cases saidCapacity with
    | none => exact ⟨64, .absent⟩
    | some json =>
      obtain ⟨integer, rfl, hnonneg, -⟩ := h json rfl
      exact ⟨_, .given (Int.toNat_of_nonneg hnonneg).symm⟩

theorem exists_areRules_iff :
    (∃ rules, AreRules saidRules rules) ↔
      ∀ json, saidRules = some json → ∃ rules, json = .object rules := by
  constructor
  · rintro ⟨rules, _ | _⟩ json hjson
    · exact ⟨_, (Option.some.inj hjson).symm⟩
    · cases hjson
  · intro h
    cases saidRules with
    | none => exact ⟨[], .absent⟩
    | some json =>
      obtain ⟨rules, rfl⟩ := h json rfl
      exact ⟨rules, .given⟩

theorem decode_object_iff (hdistinct : (Json.keys members).Nodup) :
    record.decode (.object members) = .ok (capacity, rules, ()) ↔
      (∀ key ∈ Json.keys members, key = "channelCapacity" ∨ key = "rules") ∧
        IsCapacity (members.lookup "channelCapacity") capacity ∧
        AreRules (members.lookup "rules") rules := by
  have hadmits : record.Admits members ↔
      ∀ key ∈ Json.keys members, key = "channelCapacity" ∨ key = "rules" := by
    have hkeys : record.fields.keys = ["channelCapacity", "rules"] := rfl
    simp only [Record.Admits, hkeys, List.mem_pair, Json.keys, List.forall_mem_map]
    exact ⟨fun h => h rfl, fun h _ => h⟩
  rw [isCapacity_iff, areRules_iff, ← hadmits]
  refine (Record.ofMembers_eq_ok_iff nodup_keys_record).trans (and_congr_right fun _ => ?_)
  refine and_congr (Field.has_iff_of_lone hdistinct rfl) ?_
  exact (and_iff_left trivial).trans (Field.has_iff_of_lone hdistinct rfl)

/-- An array is read as the object that names its items. -/
theorem decode_array_iff :
    record.decode (.array items) = .ok (capacity, rules, ()) ↔
      items.length ≤ 2 ∧ IsCapacity items[0]? capacity ∧ AreRules items[1]? rules := by
  by_cases hle : items.length ≤ 2
  · rw [readsAlike_record.ok_iff items _ hle, and_iff_right hle,
      decode_object_iff (Json.nodup_keys_zip (by decide) items)]
    rcases items with _ | ⟨first, _ | ⟨second, _ | _⟩⟩
    · exact and_iff_right nofun
    · exact and_iff_right (List.forall_mem_singleton.mpr (.inl rfl))
    · exact and_iff_right fun _ hkey => List.mem_pair.mp hkey
    · simp at hle
  · refine iff_of_false ?_ fun h => hle h.1
    exact readsAlike_record.not_ok_of_lt items _ (Nat.lt_of_not_le hle)

/-- A document has the form of settings if it says nothing else, and what it says of the capacity
and of the rules can be a capacity and rules. -/
theorem decode_record_iff (hdistinct : document.HasDistinctKeys) :
    record.decode document = .ok (capacity, rules, ()) ↔
      ∃ saidCapacity saidRules, Says document saidCapacity saidRules ∧
        IsCapacity saidCapacity capacity ∧ AreRules saidRules rules := by
  constructor
  · intro h
    cases hdistinct with
    | object members hkeys _ =>
      obtain ⟨hnames, hcapacity, hrules⟩ := (decode_object_iff hkeys).mp h
      exact ⟨_, _, .byName hnames, hcapacity, hrules⟩
    | array items _ =>
      obtain ⟨hle, hcapacity, hrules⟩ := decode_array_iff.mp h
      exact ⟨_, _, .byPosition hle, hcapacity, hrules⟩
    | _ => cases h
  · rintro ⟨_, _, hnames | hle, hcapacity, hrules⟩
    · cases hdistinct with
      | object _ hkeys _ => exact (decode_object_iff hkeys).mpr ⟨hnames, hcapacity, hrules⟩
    · exact decode_array_iff.mpr ⟨hle, hcapacity, hrules⟩

/-! ### Rules one after another -/

theorem checkRules_eq_ok_iff :
    checkRules rules = .ok () ↔ ∀ member ∈ rules, checkOptions member.2 = .ok () := by
  induction rules with
  | nil => exact ⟨fun _ => nofun, fun _ => rfl⟩
  | cons member rest ih =>
    obtain ⟨rule, options⟩ := member
    rw [List.forall_mem_cons, ← ih, checkRules]
    cases checkOptions options with
    | error _ => exact ⟨nofun, nofun⟩
    | ok _ => exact (and_iff_right rfl).symm

/-- The first rule that is refused its options is the error, whatever comes after it. -/
theorem checkRules_eq_error_iff :
    checkRules rules = .error error ↔
      ∃ before rule options after mismatch, rules = before ++ (rule, options) :: after ∧
        (∀ member ∈ before, checkOptions member.2 = .ok ()) ∧
        checkOptions options = .error mismatch ∧ error = .options rule mismatch := by
  constructor
  · intro h
    induction rules with
    | nil => cases h
    | cons member rest ih =>
      obtain ⟨rule, options⟩ := member
      rw [checkRules] at h
      cases hoptions : checkOptions options with
      | error mismatch =>
        simp only [hoptions] at h
        exact ⟨[], rule, options, rest, mismatch, rfl, nofun, hoptions, (Except.error.inj h).symm⟩
      | ok _ =>
        simp only [hoptions] at h
        obtain ⟨before, other, given, after, mismatch, rfl, hbefore, hgiven, rfl⟩ := ih h
        refine ⟨(rule, options) :: before, other, given, after, mismatch, rfl, ?_, hgiven, rfl⟩
        exact List.forall_mem_cons.mpr ⟨hoptions, hbefore⟩
  · rintro ⟨before, rule, options, after, mismatch, rfl, hbefore, hoptions, rfl⟩
    induction before with
    | nil => simp only [List.nil_append, checkRules, hoptions]
    | cons member before ih =>
      obtain ⟨other, given⟩ := member
      rw [List.forall_mem_cons] at hbefore
      simp only [List.cons_append, checkRules, hbefore.1]
      exact ih hbefore.2

theorem exists_eq_options_of_checkRules (h : checkRules rules = .error error) :
    ∃ rule mismatch, error = .options rule mismatch := by
  obtain ⟨_, rule, _, _, mismatch, -, -, -, rfl⟩ := checkRules_eq_error_iff.mp h
  exact ⟨rule, mismatch, rfl⟩

/-! ### The verdict -/

/-- What becomes of a document: the first of three steps that finds something wrong decides. -/
inductive Verdict (document : Json) : Except SettingsError Settings → Prop
  | mismatch {mismatch : Mismatch} : record.decode document = .error mismatch →
      Verdict document (.error (.mismatch mismatch))
  | noCapacity {rules : Json.Members} : record.decode document = .ok (0, rules, ()) →
      Verdict document (.error .noCapacity)
  | options {capacity : Nat} {rules : Json.Members} {error : SettingsError} :
      record.decode document = .ok (capacity, rules, ()) → 0 < capacity →
      checkRules rules = .error error → Verdict document (.error error)
  | ok {settings : Settings} {rules : Json.Members} :
      record.decode document = .ok (settings.capacity, rules, ()) → checkRules rules = .ok () →
      settings.rules = Json.keys rules → Verdict document (.ok settings)

theorem verdict_ofJson (document : Json) : Verdict document (ofJson document) := by
  cases hdecode : record.decode document with
  | error mismatch =>
    simp only [ofJson, hdecode]
    exact .mismatch hdecode
  | ok values =>
    obtain ⟨capacity, rules, ⟨⟩⟩ := values
    simp only [ofJson, hdecode]
    by_cases hpos : 0 < capacity
    · rw [dif_pos hpos]
      cases hrules : checkRules rules with
      | error error => exact .options hdecode hpos hrules
      | ok _ => exact .ok hdecode hrules rfl
    · rw [dif_neg hpos]
      obtain rfl := Nat.eq_zero_of_not_pos hpos
      exact .noCapacity hdecode

theorem ofJson_eq_iff {result : Except SettingsError Settings} :
    ofJson document = result ↔ Verdict document result := by
  constructor
  · rintro rfl
    exact verdict_ofJson document
  · intro h
    cases h with
    | mismatch hdecode => simp only [ofJson, hdecode]
    | noCapacity hdecode => simp only [ofJson, hdecode, Nat.lt_irrefl, dite_false]
    | options hdecode hpos hrules => simp only [ofJson, hdecode, hpos, hrules, dite_true]
    | ok hdecode hrules hkeys =>
      rename_i settings rules
      obtain ⟨capacity, names, hpos⟩ := settings
      subst hkeys
      simp only [ofJson, hdecode, hpos, hrules, dite_true]

theorem ofJson_eq_ok_iff :
    ofJson document = .ok settings ↔
      ∃ rules, record.decode document = .ok (settings.capacity, rules, ()) ∧
        (∀ member ∈ rules, checkOptions member.2 = .ok ()) ∧
        settings.rules = Json.keys rules := by
  rw [ofJson_eq_iff]
  constructor
  · rintro (_ | _ | _ | ⟨hdecode, hrules, hkeys⟩)
    exact ⟨_, hdecode, checkRules_eq_ok_iff.mp hrules, hkeys⟩
  · rintro ⟨rules, hdecode, hrules, hkeys⟩
    exact .ok hdecode (checkRules_eq_ok_iff.mpr hrules) hkeys

theorem ofJson_eq_noCapacity_iff :
    ofJson document = .error .noCapacity ↔
      ∃ rules, record.decode document = .ok (0, rules, ()) := by
  rw [ofJson_eq_iff]
  constructor
  · intro h
    cases h with
    | noCapacity hdecode => exact ⟨_, hdecode⟩
    | options _ _ hrules =>
      obtain ⟨_, _, herror⟩ := exists_eq_options_of_checkRules hrules
      cases herror
  · rintro ⟨rules, hdecode⟩
    exact .noCapacity hdecode

theorem ofJson_eq_options_iff :
    ofJson document = .error (.options rule mismatch) ↔
      ∃ capacity before options after, 0 < capacity ∧
        record.decode document = .ok (capacity, before ++ (rule, options) :: after, ()) ∧
        (∀ member ∈ before, checkOptions member.2 = .ok ()) ∧
        checkOptions options = .error mismatch := by
  rw [ofJson_eq_iff]
  constructor
  · intro h
    cases h with
    | options hdecode hpos hrules =>
      obtain ⟨before, _, options, after, _, rfl, hbefore, hoptions, herror⟩ :=
        checkRules_eq_error_iff.mp hrules
      obtain ⟨rfl, rfl⟩ := SettingsError.options.inj herror
      exact ⟨_, before, options, after, hpos, hdecode, hbefore, hoptions⟩
  · rintro ⟨capacity, before, options, after, hpos, hdecode, hbefore, hoptions⟩
    refine .options hdecode hpos (checkRules_eq_error_iff.mpr ?_)
    exact ⟨before, rule, options, after, mismatch, rfl, hbefore, hoptions, rfl⟩

theorem exists_ofJson_eq_mismatch_iff :
    (∃ mismatch, ofJson document = .error (.mismatch mismatch)) ↔
      ∀ values, record.decode document ≠ .ok values := by
  simp only [ofJson_eq_iff]
  constructor
  · rintro ⟨mismatch, h⟩ values hvalues
    cases h with
    | mismatch hdecode => cases hdecode.symm.trans hvalues
    | options _ _ hrules =>
      obtain ⟨_, _, herror⟩ := exists_eq_options_of_checkRules hrules
      cases herror
  · intro h
    cases hdecode : record.decode document with
    | error mismatch => exact ⟨mismatch, .mismatch hdecode⟩
    | ok values => exact absurd hdecode (h values)

/-- What is said in a document with distinct keys has distinct keys. -/
theorem Says.hasDistinctKeys (h : Says document saidCapacity saidRules)
    (hdistinct : document.HasDistinctKeys) {json : Json} (hjson : saidRules = some json) :
    json.HasDistinctKeys := by
  cases h with
  | byName _ =>
    cases hdistinct with
    | object _ hkeys hvalues =>
      exact hvalues _ ((Json.lookup_eq_some_iff_mem hkeys).mp hjson)
  | byPosition _ =>
    cases hdistinct with
    | array _ hitems => exact hitems _ (List.mem_of_getElem? hjson)

section

variable (hdistinct : document.HasDistinctKeys)
include hdistinct

/-- A document is refused for its form if it has none, or if what it says of the capacity or of the
rules cannot be any. -/
theorem exists_mismatch_iff :
    (∃ mismatch, ofJson document = .error (.mismatch mismatch)) ↔
      (¬ ∃ capacity rules, Says document capacity rules) ∨
        ∃ capacity rules, Says document capacity rules ∧
          ((¬ ∃ count, IsCapacity capacity count) ∨ ¬ ∃ members, AreRules rules members) := by
  rw [exists_ofJson_eq_mismatch_iff]
  constructor
  · intro h
    by_cases hsays : ∃ capacity rules, Says document capacity rules
    · obtain ⟨capacity, rules, hsays⟩ := hsays
      refine .inr ⟨capacity, rules, hsays, ?_⟩
      by_contra hboth
      rw [not_or, not_not, not_not] at hboth
      obtain ⟨⟨count, hcapacity⟩, members, hrules⟩ := hboth
      have hdecode := (decode_record_iff hdistinct).mpr ⟨_, _, hsays, hcapacity, hrules⟩
      exact h _ hdecode
    · exact .inl hsays
  · rintro h ⟨count, members, ⟨⟩⟩ hdecode
    obtain ⟨_, _, hsays, hcapacity, hrules⟩ := (decode_record_iff hdistinct).mp hdecode
    rcases h with hnone | ⟨_, _, hsays', hnot⟩
    · exact hnone ⟨_, _, hsays⟩
    · obtain ⟨rfl, rfl⟩ := hsays.unique hsays'
      rcases hnot with hnot | hnot
      · exact hnot ⟨count, hcapacity⟩
      · exact hnot ⟨members, hrules⟩

theorem nodup_rules_of_ofJson (h : ofJson document = .ok settings) : settings.rules.Nodup := by
  obtain ⟨rules, hdecode, -, hkeys⟩ := ofJson_eq_ok_iff.mp h
  obtain ⟨_, _, hsays, -, hrules⟩ := (decode_record_iff hdistinct).mp hdecode
  rw [hkeys]
  cases hrules with
  | given =>
    cases hsays.hasDistinctKeys hdistinct rfl with
    | object _ hnodup _ => exact hnodup
  | absent => exact List.nodup_nil

end

theorem ofText_eq_ok_iff {text : String} :
    ofText text = .ok settings ↔
      ∃ document, Json.read text = .ok document ∧ ofJson document = .ok settings := by
  rw [ofText]
  cases Json.read text with
  | error _ => simp
  | ok document => simp

/-- A text names each rule once, as it is read as a document with distinct keys. -/
theorem nodup_rules_of_ofText {text : String} (h : ofText text = .ok settings) :
    settings.rules.Nodup := by
  obtain ⟨document, hread, hdocument⟩ := ofText_eq_ok_iff.mp h
  exact nodup_rules_of_ofJson (Json.isReadable_of_read hread).hasDistinctKeys hdocument

/-- What the validation of a document amounts to. -/
structure Validation (document : Json) : Prop where
  /-- A document is refused for its form exactly if it is neither an object of the two members nor
  an array of two items at most, or gives a capacity that is no integer of a word, or rules that are
  no object. -/
  mismatch_iff : (∃ mismatch, ofJson document = .error (.mismatch mismatch)) ↔
    (¬ ∃ capacity rules, Says document capacity rules) ∨
      ∃ capacity rules, Says document capacity rules ∧
        ((∃ json, capacity = some json ∧ ¬ ∃ integer : Json.Integer, json = .integer integer ∧
          0 ≤ integer.value ∧ integer.value ≤ 2 ^ 64 - 1) ∨
        ∃ json, rules = some json ∧ ¬ ∃ members, json = .object members)
  /-- Otherwise it is refused for its capacity exactly if that is zero, whatever the rules are. -/
  noCapacity_iff : ofJson document = .error .noCapacity ↔
    ∃ capacity rules members, Says document capacity rules ∧ IsCapacity capacity 0 ∧
      AreRules rules members
  /-- Otherwise it is refused for the options of the first rule that does not take them, with what
  is wrong with those, whatever the rules after it are. -/
  options_iff : ∀ rule mismatch, ofJson document = .error (.options rule mismatch) ↔
    ∃ capacity rules count before options after, Says document capacity rules ∧
      IsCapacity capacity count ∧ 0 < count ∧ AreRules rules (before ++ (rule, options) :: after) ∧
      (∀ member ∈ before, checkOptions member.2 = .ok ()) ∧ checkOptions options = .error mismatch
  /-- Otherwise it has settings: the capacity, and the names of the rules in their order. -/
  ok_iff : ∀ settings, ofJson document = .ok settings ↔
    ∃ capacity rules members, Says document capacity rules ∧
      IsCapacity capacity settings.capacity ∧ 0 < settings.capacity ∧ AreRules rules members ∧
      (∀ member ∈ members, checkOptions member.2 = .ok ()) ∧
      settings.rules = Json.keys members
  /-- Each rule is named once. -/
  nodup_rules : ∀ settings, ofJson document = .ok settings → settings.rules.Nodup
  /-- Neither the capacity nor the rules may be null. -/
  mismatch_of_null : ∀ capacity rules, Says document capacity rules →
    capacity = some .null ∨ rules = some .null →
    ∃ mismatch, ofJson document = .error (.mismatch mismatch)
  /-- A document is no text that could be malformed. -/
  ne_malformedText : ∀ error, ofJson document ≠ .error (.malformedText error)

/-- A document with distinct keys is validated so. -/
theorem validation_ofJson (hdistinct : document.HasDistinctKeys) : Validation document where
  mismatch_iff := by
    rw [exists_mismatch_iff hdistinct]
    simp only [exists_isCapacity_iff, exists_areRules_iff, not_forall, exists_prop]
  noCapacity_iff := by
    simp only [ofJson_eq_noCapacity_iff, decode_record_iff hdistinct]
    constructor
    · rintro ⟨members, capacity, rules, hsaid⟩
      exact ⟨capacity, rules, members, hsaid⟩
    · rintro ⟨capacity, rules, members, hsaid⟩
      exact ⟨members, capacity, rules, hsaid⟩
  options_iff rule mismatch := by
    simp only [ofJson_eq_options_iff, decode_record_iff hdistinct]
    constructor
    · rintro ⟨count, before, options, after, hpos, ⟨capacity, rules, hsays, hcapacity, hrules⟩,
        hchecks⟩
      exact ⟨capacity, rules, count, before, options, after, hsays, hcapacity, hpos, hrules,
        hchecks⟩
    · rintro ⟨capacity, rules, count, before, options, after, hsays, hcapacity, hpos, hrules,
        hchecks⟩
      exact ⟨count, before, options, after, hpos, ⟨capacity, rules, hsays, hcapacity, hrules⟩,
        hchecks⟩
  ok_iff settings := by
    simp only [ofJson_eq_ok_iff, decode_record_iff hdistinct]
    constructor
    · rintro ⟨members, ⟨capacity, rules, hsays, hcapacity, hrules⟩, hchecks⟩
      exact ⟨capacity, rules, members, hsays, hcapacity, settings.capacity_pos, hrules, hchecks⟩
    · rintro ⟨capacity, rules, members, hsays, hcapacity, -, hrules, hchecks⟩
      exact ⟨members, ⟨capacity, rules, hsays, hcapacity, hrules⟩, hchecks⟩
  nodup_rules _ h := nodup_rules_of_ofJson hdistinct h
  mismatch_of_null capacity rules hsays hnull := by
    refine (exists_mismatch_iff hdistinct).mpr (.inr ⟨capacity, rules, hsays, ?_⟩)
    rcases hnull with rfl | rfl
    · exact .inl nofun
    · exact .inr nofun
  ne_malformedText error h := by
    rw [ofJson_eq_iff] at h
    cases h with
    | options _ _ hrules =>
      obtain ⟨_, _, herror⟩ := exists_eq_options_of_checkRules hrules
      cases herror

/-- A document whose second rule and third rule are given options: the second is the error. -/
theorem validation_ofJson_babel :
    Json.HasDistinctKeys (.object [("channelCapacity", .integer ⟨8, by decide, by decide⟩),
      ("rules", .object [("typescript-config", .null),
        ("babel-config", .object [("severity", .string "off")]), ("eslint-config", .bool true)])]) ∧
    ofJson (.object [("channelCapacity", .integer ⟨8, by decide, by decide⟩),
      ("rules", .object [("typescript-config", .null),
        ("babel-config", .object [("severity", .string "off")]), ("eslint-config", .bool true)])]) =
      .error (.options "babel-config" (.unknownField "severity" [])) := by
  have hdistinct : Json.HasDistinctKeys (.object
      [("channelCapacity", .integer ⟨8, by decide, by decide⟩),
        ("rules", .object [("typescript-config", .null),
          ("babel-config", .object [("severity", .string "off")]),
          ("eslint-config", .bool true)])]) := by
    refine .object _ (by decide) ?_
    simp only [List.forall_mem_cons]
    refine ⟨.integer _, .object _ (by decide) ?_, List.forall_mem_nil _⟩
    simp only [List.forall_mem_cons]
    exact ⟨.null, .object _ (by decide) (List.forall_mem_singleton.mpr (.string _)), .bool _,
      List.forall_mem_nil _⟩
  refine ⟨hdistinct, ((validation_ofJson hdistinct).options_iff _ _).mpr ?_⟩
  refine ⟨_, _, 8, [("typescript-config", .null)], _, [("eslint-config", .bool true)],
    .byName ?_, .given rfl, by decide, .given, ?_, rfl⟩
  · exact fun key hkey => List.mem_pair.mp hkey
  · exact List.forall_mem_singleton.mpr rfl

/-! ### Options of rules -/

/-- A rule takes no options, which may be said by null, by an object without members, or by an array
without items. -/
theorem checkOptions_eq_ok_iff :
    checkOptions options = .ok () ↔
      options = .null ∨ options = .object [] ∨ options = .array [] := by
  cases options with
  | null => exact ⟨fun _ => .inl rfl, fun _ => rfl⟩
  | object members =>
    cases members with
    | nil => exact ⟨fun _ => .inr (.inl rfl), fun _ => rfl⟩
    | cons member rest =>
      -- Options are closed, and no field of theirs goes by the key.
      obtain ⟨key, json⟩ := member
      have hrefused : checkOptions (.object ((key, json) :: rest)) =
          .error (.unknownField key []) := rfl
      simp [hrefused]
  | array items =>
    cases items with
    | nil => exact ⟨fun _ => .inr (.inr rfl), fun _ => rfl⟩
    | cons item rest =>
      have hrefused : checkOptions (.array (item :: rest)) =
          .error (.tooManyItems (rest.length + 1)) := rfl
      simp [hrefused]
  | _ => simp [checkOptions, Record.decode]

/-- A document gives a rule options, by name or by position. -/
inductive GivesOptions : Json → String → Json → Prop
  | byName {members rules : Json.Members} {rule : String} {options : Json} :
      ("rules", .object rules) ∈ members → (rule, options) ∈ rules →
      GivesOptions (.object members) rule options
  | byPosition {capacity : Json} {rules : Json.Members} {rule : String} {options : Json}
      {rest : List Json} : (rule, options) ∈ rules →
      GivesOptions (.array (capacity :: .object rules :: rest)) rule options

/-- The rules that a document gives options are those that its form has. -/
theorem GivesOptions.mem (h : GivesOptions document rule options)
    (hdecode : record.decode document = .ok (capacity, rules, ())) : (rule, options) ∈ rules := by
  cases h with
  | byName hmember hmem =>
    rename_i members given
    obtain ⟨-, -, ⟨slot, hslot, hvalue⟩, -⟩ :=
      (Record.ofMembers_eq_ok_iff nodup_keys_record).mp hdecode
    have hgiver : ("rules", .object given) ∈ Field.givers
        { name := "rules", read := Shape.readMap, fallback := some [] } members :=
      List.mem_filter.mpr ⟨hmember, rfl⟩
    -- Only one member gives the rules, so it is this one.
    cases hslot with
    | absent hnone =>
      rw [hnone] at hgiver
      cases hgiver
    | given hone hread =>
      rw [hone, List.mem_singleton] at hgiver
      obtain ⟨-, rfl⟩ := Prod.mk.inj hgiver
      obtain rfl := Json.object.inj (Shape.readMap_eq_ok_iff.mp hread)
      obtain rfl := Option.some.inj hvalue
      exact hmem
  | byPosition hmem =>
    obtain ⟨-, -, hrules⟩ := decode_array_iff.mp hdecode
    cases hrules
    exact hmem

/-- When a value is taken as the options of a rule. -/
structure OptionsAccount (options : Json) : Prop where
  /-- It is taken exactly if there are none in it: it is null, or has neither members nor items. -/
  checkOptions_iff : checkOptions options = .ok () ↔
    options = .null ∨ options = .object [] ∨ options = .array []
  /-- Only an array without items is taken though it is neither null nor an object. -/
  ne_array_iff : (checkOptions options = .ok () ↔ options = .null ∨ options = .object []) ↔
    options ≠ .array []
  /-- A document that gives it to a rule has settings only if it is taken. -/
  of_ofJson : ∀ document settings rule, ofJson document = .ok settings →
    GivesOptions document rule options →
    options = .null ∨ options = .object [] ∨ options = .array []

/-- Rules are given no options. -/
theorem optionsAccount (options : Json) : OptionsAccount options where
  checkOptions_iff := checkOptions_eq_ok_iff
  ne_array_iff := by
    rw [checkOptions_eq_ok_iff]
    constructor
    · rintro h rfl
      rcases h.mp (.inr (.inr rfl)) with h | h <;> cases h
    · intro h
      rw [or_iff_left h]
  of_ofJson document settings rule h hgives := by
    obtain ⟨rules, hdecode, hchecks, -⟩ := ofJson_eq_ok_iff.mp h
    exact checkOptions_eq_ok_iff.mp (hchecks _ (hgives.mem hdecode))

/-- A document that gives options to two rules, neither of them any. -/
theorem optionsAccount_typescript :
    ofJson (.object [("rules", .object [("typescript-config", .object []),
      ("babel-config", .null)])]) = .ok { rules := ["typescript-config", "babel-config"] } ∧
    GivesOptions (.object [("rules", .object [("typescript-config", .object []),
      ("babel-config", .null)])]) "babel-config" .null ∧
    (Json.null = .null ∨ Json.null = .object [] ∨ Json.null = .array []) := by
  have h : ofJson (.object [("rules", .object [("typescript-config", .object []),
      ("babel-config", .null)])]) = .ok { rules := ["typescript-config", "babel-config"] } := rfl
  have hgives : GivesOptions (.object [("rules", .object [("typescript-config", .object []),
      ("babel-config", .null)])]) "babel-config" .null :=
    .byName List.mem_cons_self (List.mem_cons_of_mem _ List.mem_cons_self)
  exact ⟨h, hgives, (optionsAccount .null).of_ofJson _ _ _ h hgives⟩

/-- An array without items is neither null nor an object, and a document that gives it to a rule has
settings. -/
theorem ofJson_of_empty_array :
    checkOptions (.array []) = .ok () ∧
      ¬ (Json.array [] = .null ∨ Json.array [] = .object []) ∧
      ofJson (.object [("rules", .object [("babel-config", .array [])])]) =
        .ok { rules := ["babel-config"] } := by
  refine ⟨rfl, ?_, rfl⟩
  rintro (h | h) <;> cases h

end ConfigDiagnostics.Settings
