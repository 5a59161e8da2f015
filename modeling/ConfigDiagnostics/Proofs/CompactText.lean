import ConfigDiagnostics.Proofs.Reading
import ConfigDiagnostics.Proofs.Spelling
import ConfigDiagnostics.Settings
import ConfigDiagnostics.Violation

/-!
# Compact text is read as the value it spells

A value without floats, in which the keys of each object are distinct, is given again when its
compact text is read to its depth. So the text tells the value from all others, and a document of
settings comes to the same whether it is given as a value or as its compact text.

What is inside brackets is read by a reader of its own, so all is first said of any reader that
takes the texts of the items, and only at the end by induction on the depth.

## Main definitions

* `Json.Reads`: a reader takes the compact text of a value, and nothing after it
* `Json.Faithful`: what the compact text of a value comes to

## Main results

* `Json.readArray_itemChars`, `Json.readObject_memberChars`: what is inside brackets is all read
* `Json.reads_readValue`: so is a value, to its depth
* `Json.read_compact_eq_ok_iff`: a value without floats is read from its text exactly if it is
  readable at all
* `Json.faithful_of_isFloatFree`: the compact text of such a value is faithful
-/

namespace ConfigDiagnostics.Json

theorem skipBlanks_cons {c : Char} (h : isBlank c = false) (left : List Char) :
    skipBlanks (c :: left) = c :: left := by
  simp only [skipBlanks, List.dropWhile_cons, h, Bool.false_eq_true, if_false]

/-! ### Where a text starts -/

/-- A value's text starts with a character, which is neither a blank nor a closing bracket. -/
def StartsValue (chars : List Char) : Prop :=
  ∃ c left, chars = c :: left ∧ isBlank c = false ∧ c ≠ ']'

theorem StartsValue.append {chars : List Char} (h : StartsValue chars) (left : List Char) :
    StartsValue (chars ++ left) := by
  obtain ⟨c, rest, rfl, hblank, hc⟩ := h
  exact ⟨c, rest ++ left, rfl, hblank, hc⟩

theorem StartsValue.length_pos {chars : List Char} (h : StartsValue chars) : 0 < chars.length := by
  obtain ⟨c, rest, rfl, -⟩ := h
  exact Nat.zero_lt_succ _

theorem isBlank_of_isDigit {c : Char} (h : c.isDigit) : isBlank c = false := by
  have hne {d : Char} (hd : d.isDigit = false) : (c == d) = false :=
    beq_eq_false_iff_ne.mpr (ne_of_isDigit h hd)
  rw [isBlank, hne rfl, hne rfl, hne rfl, hne rfl]
  rfl

theorem startsValue_toDigits (number : Nat) : StartsValue (Nat.toDigits 10 number) := by
  obtain ⟨c, rest, hdigits⟩ := List.exists_cons_of_ne_nil (Nat.toDigits_ne_nil (n := number))
  have hdigit := isDigit_of_toDigits_eq_cons hdigits c List.mem_cons_self
  exact ⟨c, rest, hdigits, isBlank_of_isDigit hdigit, ne_of_isDigit hdigit rfl⟩

theorem startsValue_compactChars {value : Json} (h : value.IsFloatFree) :
    StartsValue value.compactChars := by
  cases h with
  | null => exact ⟨'n', _, rfl, rfl, by decide⟩
  | bool value => cases value <;> exact ⟨_, _, rfl, rfl, by decide⟩
  | integer value =>
    rw [compactChars, integerChars]
    split
    · exact ⟨'-', _, rfl, rfl, by decide⟩
    · exact startsValue_toDigits _
  | string value => exact ⟨'\x22', _, rfl, rfl, by decide⟩
  | array items => exact ⟨'[', _, rfl, rfl, by decide⟩
  | object members => exact ⟨'\x7b', _, rfl, rfl, by decide⟩

/-! ### Arrays -/

/-- The reader takes the compact text of the value, and nothing that may follow it. -/
def Reads (readItem : List Char → Reading Json) (value : Json) : Prop :=
  ∀ left, EndsValue left → readItem (value.compactChars ++ left) = .ok (value, left)

section

variable {readItem : List Char → Reading Json} {read : List Json} {item : Json} {rounds : Nat}
  {chars left : List Char}

theorem readItems_of_bracket (h : readItem chars = .ok (item, ']' :: left)) :
    readItems readItem read (rounds + 1) chars = .ok (read.reverse ++ [item], left) := by
  rw [readItems, h]
  simp only [skipBlanks_cons (c := ']') rfl, List.reverse_cons]

theorem readItems_of_comma (h : readItem chars = .ok (item, ',' :: left))
    (hleft : StartsValue left) :
    readItems readItem read (rounds + 1) chars =
      readItems readItem (item :: read) rounds left := by
  obtain ⟨c, rest, rfl, hblank, hc⟩ := hleft
  rw [readItems, h]
  simp only [skipBlanks_cons (c := ',') rfl, skipBlanks_cons hblank]
  -- After a comma the reader looks for a bracket first, which no item starts with.
  split
  · rename_i hnil
    cases hnil
  · rename_i hbracket
    exact absurd (List.cons.inj hbracket).1 hc
  · rfl

theorem itemChars_cons_cons (item second : Json) (rest : List Json) :
    itemChars (item :: second :: rest) =
      item.compactChars ++ ',' :: itemChars (second :: rest) := rfl

theorem startsValue_itemChars {item : Json} (h : item.IsFloatFree) (rest : List Json) :
    StartsValue (itemChars (item :: rest)) := by
  cases rest with
  | nil => exact startsValue_compactChars h
  | cons second rest => exact (startsValue_compactChars h).append _

/-- The text of items is at least as long as there are items. -/
theorem length_le_length_itemChars {items : List Json} (h : ∀ item ∈ items, item.IsFloatFree) :
    items.length ≤ (itemChars items).length := by
  induction items with
  | nil => exact Nat.zero_le _
  | cons item rest ih =>
    obtain ⟨hitem, hrest⟩ := List.forall_mem_cons.mp h
    have hpos := (startsValue_compactChars hitem).length_pos
    have hle := ih hrest
    cases rest with
    | nil => exact hpos
    | cons second rest =>
      simp only [itemChars_cons_cons, List.length_append, List.length_cons] at hle ⊢
      omega

/-- All items are read, in as many rounds as there are items. -/
theorem readItems_itemChars {items : List Json} (hne : items ≠ [])
    (hitems : ∀ item ∈ items, item.IsFloatFree ∧ Reads readItem item)
    (hrounds : items.length ≤ rounds) (read : List Json) (left : List Char) :
    readItems readItem read rounds (itemChars items ++ ']' :: left) =
      .ok (read.reverse ++ items, left) := by
  induction items generalizing read rounds with
  | nil => exact absurd rfl hne
  | cons item rest ih =>
    obtain ⟨⟨-, hitem⟩, hrest⟩ := List.forall_mem_cons.mp hitems
    obtain ⟨rounds, rfl⟩ := Nat.exists_eq_add_one_of_ne_zero (Nat.ne_zero_of_lt hrounds)
    cases rest with
    | nil => exact readItems_of_bracket (hitem _ (.bracket left))
    | cons second rest =>
      have hsecond : second.IsFloatFree := (hrest second List.mem_cons_self).1
      rw [itemChars_cons_cons, List.append_assoc, List.cons_append,
        readItems_of_comma (hitem _ (.comma _)) ((startsValue_itemChars hsecond rest).append _),
        ih (List.cons_ne_nil _ _) hrest (Nat.le_of_succ_le_succ hrounds), List.reverse_cons,
        List.append_assoc, List.singleton_append]

theorem readArray_of_startsValue (h : StartsValue chars) :
    readArray readItem chars = readItems readItem [] (chars.length + 1) chars := by
  obtain ⟨c, rest, rfl, hblank, hc⟩ := h
  rw [readArray, skipBlanks_cons hblank]
  split
  · rename_i hnil
    cases hnil
  · rename_i hbracket
    exact absurd (List.cons.inj hbracket).1 hc
  · rfl

/-- After its opening bracket, an array is read up to its closing bracket. -/
theorem readArray_itemChars {items : List Json}
    (hitems : ∀ item ∈ items, item.IsFloatFree ∧ Reads readItem item) (left : List Char) :
    readArray readItem (itemChars items ++ ']' :: left) = .ok (items, left) := by
  cases items with
  | nil => rfl
  | cons item rest =>
    have hfree : ∀ other ∈ item :: rest, other.IsFloatFree := fun other h => (hitems other h).1
    have hstart := (startsValue_itemChars (hfree item List.mem_cons_self) rest).append (']' :: left)
    have hrounds :
        (item :: rest).length ≤ (itemChars (item :: rest) ++ ']' :: left).length + 1 := by
      have hlength := length_le_length_itemChars hfree
      rw [List.length_append]
      omega
    rw [readArray_of_startsValue hstart]
    exact readItems_itemChars (List.cons_ne_nil item rest) hitems hrounds [] left

end

/-! ### Objects -/

/-- A key that is not among those before it is put at the end. -/
theorem put_of_notMem {key : String} {value : Json} {members : Members}
    (h : key ∉ keys members) : put key value members = members ++ [(key, value)] := by
  induction members with
  | nil => rfl
  | cons member rest ih =>
    obtain ⟨k, v⟩ := member
    rw [keys, List.map_cons, List.mem_cons, not_or] at h
    rw [put, if_neg (Ne.symm h.1), ih h.2, List.cons_append]

section

variable {readItem : List Char → Reading Json} {read : Members} {key : String} {value : Json}
  {rounds : Nat} {chars left : List Char}

/-- A member is read after the opening quote of its key. -/
theorem readMember_append (hvalue : Reads readItem value) (hleft : EndsValue left) :
    readMember readItem
      (key.toList.flatMap escaped ++ '\x22' :: ':' :: (value.compactChars ++ left)) =
      .ok ((key, value), left) := by
  rw [readMember, readString_append]
  simp only [skipBlanks_cons (c := ':') rfl, hvalue left hleft]

theorem readMembers_of_brace (h : readMember readItem chars = .ok ((key, value), '\x7d' :: left)) :
    readMembers readItem read (rounds + 1) chars = .ok (put key value read, left) := by
  rw [readMembers, h]
  simp only [skipBlanks_cons (c := '\x7d') rfl]

theorem readMembers_of_comma
    (h : readMember readItem chars = .ok ((key, value), ',' :: '\x22' :: left)) :
    readMembers readItem read (rounds + 1) chars =
      readMembers readItem (put key value read) rounds left := by
  rw [readMembers, h]
  simp only [skipBlanks_cons (c := ',') rfl, skipBlanks_cons (c := '\x22') rfl]

theorem memberChars_singleton_append (key : String) (value : Json) (left : List Char) :
    memberChars [(key, value)] ++ left =
      '\x22' :: (key.toList.flatMap escaped ++ '\x22' :: ':' :: (value.compactChars ++ left)) := by
  simp [memberChars, stringChars]

theorem memberChars_cons_append (key : String) (value : Json) {rest : Members} (hrest : rest ≠ [])
    (left : List Char) :
    memberChars ((key, value) :: rest) ++ left =
      '\x22' :: (key.toList.flatMap escaped ++ '\x22' :: ':' ::
        (value.compactChars ++ ',' :: (memberChars rest ++ left))) := by
  cases rest with
  | nil => exact absurd rfl hrest
  | cons second rest => simp [memberChars, stringChars]

/-- The text of members starts with the quote of a key. -/
theorem exists_memberChars_append_eq_cons {members : Members} (hne : members ≠ [])
    (left : List Char) : ∃ chars, memberChars members ++ left = '\x22' :: chars := by
  cases members with
  | nil => exact absurd rfl hne
  | cons member rest =>
    obtain ⟨key, value⟩ := member
    by_cases hrest : rest = []
    · subst hrest
      exact ⟨_, memberChars_singleton_append key value left⟩
    · exact ⟨_, memberChars_cons_append key value hrest left⟩

/-- The text of members is at least as long as there are members. -/
theorem length_le_length_memberChars (members : Members) :
    members.length ≤ (memberChars members).length := by
  induction members with
  | nil => exact Nat.zero_le _
  | cons member rest ih =>
    obtain ⟨key, value⟩ := member
    rw [← List.append_nil (memberChars _)]
    by_cases hrest : rest = []
    · subst hrest
      rw [memberChars_singleton_append, List.length_cons, List.length_cons, List.length_nil]
      omega
    · rw [memberChars_cons_append key value hrest]
      simp only [List.length_append, List.length_cons]
      omega

/-- All members are read after the first quote, in as many rounds as there are members. With keys
that are distinct from each other and from those before, each comes last when it is read. -/
theorem readMembers_memberChars {members : Members} (hne : members ≠ [])
    (hmembers : ∀ member ∈ members, Reads readItem member.2)
    (hkeys : (keys (read ++ members)).Nodup) (hrounds : members.length ≤ rounds)
    (h : memberChars members ++ '\x7d' :: left = '\x22' :: chars) :
    readMembers readItem read rounds chars = .ok (read ++ members, left) := by
  induction members generalizing read rounds chars with
  | nil => exact absurd rfl hne
  | cons member rest ih =>
    obtain ⟨key, value⟩ := member
    obtain ⟨hvalue, hvalues⟩ := List.forall_mem_cons.mp hmembers
    obtain ⟨rounds, rfl⟩ := Nat.exists_eq_add_one_of_ne_zero (Nat.ne_zero_of_lt hrounds)
    -- The key is not among those read before it, so it does not take the place of another.
    have hput : put key value read = read ++ [(key, value)] := by
      apply put_of_notMem
      rw [keys, List.map_append, List.map_cons] at hkeys
      exact fun hmem => (List.nodup_append.mp hkeys).2.2 key hmem key List.mem_cons_self rfl
    by_cases hrest : rest = []
    · subst hrest
      rw [memberChars_singleton_append] at h
      rw [← (List.cons.inj h).2, readMembers_of_brace (readMember_append hvalue (.brace left)),
        hput]
    · have happend : read ++ (key, value) :: rest = (read ++ [(key, value)]) ++ rest := by
        rw [List.append_assoc, List.singleton_append]
      obtain ⟨later, hlater⟩ := exists_memberChars_append_eq_cons hrest ('\x7d' :: left)
      rw [memberChars_cons_append key value hrest, hlater] at h
      rw [happend] at hkeys
      rw [← (List.cons.inj h).2, readMembers_of_comma (readMember_append hvalue (.comma _)), hput,
        happend]
      exact ih hrest hvalues hkeys (Nat.le_of_succ_le_succ hrounds) hlater

/-- After its opening brace, an object is read up to its closing brace. -/
theorem readObject_memberChars {members : Members} (hkeys : (keys members).Nodup)
    (hmembers : ∀ member ∈ members, Reads readItem member.2) (left : List Char) :
    readObject readItem (memberChars members ++ '\x7d' :: left) = .ok (members, left) := by
  by_cases hne : members = []
  · subst hne
    rfl
  · obtain ⟨chars, hchars⟩ := exists_memberChars_append_eq_cons hne ('\x7d' :: left)
    have hrounds : members.length ≤ chars.length + 1 := by
      have hlength := congrArg List.length hchars
      have hle := length_le_length_memberChars members
      rw [List.length_append, List.length_cons, List.length_cons] at hlength
      omega
    have hread : readMembers readItem [] (chars.length + 1) chars = .ok (members, left) :=
      readMembers_memberChars hne hmembers hkeys hrounds hchars
    rw [hchars, readObject, skipBlanks_cons rfl]
    exact hread

end

/-! ### Values -/

section

variable {nested : Option (List Char → Reading Json)} {readItem : List Char → Reading Json}

/-! Its first character tells what a value is. -/

theorem readValueWith_minus (left : List Char) :
    readValueWith nested ('-' :: left) = readNumber true left := rfl

theorem readValueWith_of_isDigit {c : Char} (h : c.isDigit) (left : List Char) :
    readValueWith nested (c :: left) = readNumber false (c :: left) := by
  rw [readValueWith, skipBlanks_cons (isBlank_of_isDigit h)]
  simp only [if_neg (ne_of_isDigit h (d := 'n') rfl), if_neg (ne_of_isDigit h (d := 't') rfl),
    if_neg (ne_of_isDigit h (d := 'f') rfl), if_neg (ne_of_isDigit h (d := '-') rfl), if_pos h]

theorem readValueWith_quote (left : List Char) :
    readValueWith nested ('\x22' :: left) =
      (readString left).map fun (text, left) => (string text, left) := rfl

theorem readValueWith_bracket (left : List Char) :
    readValueWith (some readItem) ('[' :: left) =
      (readArray readItem left).map fun (items, left) => (array items, left) := rfl

theorem readValueWith_brace (left : List Char) :
    readValueWith (some readItem) ('\x7b' :: left) =
      (readObject readItem left).map fun (members, left) => (object members, left) := rfl

theorem reads_integer (value : Integer) : Reads (readValueWith nested) (integer value) := by
  intro left hleft
  have hnumber := readNumber_toDigits hleft (decide (value.value < 0)) value.value.natAbs
  rw [wholeNumber_toDigits] at hnumber
  rw [compactChars, integerChars]
  -- The sign is taken off before the digits are read, and no other value starts with a digit.
  by_cases hnegative : value.value < 0
  · rw [decide_eq_true hnegative] at hnumber
    rw [if_pos hnegative, List.append_assoc, List.singleton_append, readValueWith_minus, hnumber]
  · rw [decide_eq_false hnegative] at hnumber
    rw [if_neg hnegative, List.nil_append]
    obtain ⟨c, rest, hdigits⟩ :=
      List.exists_cons_of_ne_nil (Nat.toDigits_ne_nil (n := value.value.natAbs))
    rw [hdigits, List.cons_append] at hnumber ⊢
    have hdigit := isDigit_of_toDigits_eq_cons hdigits c List.mem_cons_self
    rw [readValueWith_of_isDigit hdigit, hnumber]

theorem reads_string (text : String) : Reads (readValueWith nested) (string text) := by
  intro left _
  rw [compactChars, stringChars, List.append_assoc, List.singleton_append, List.cons_append,
    readValueWith_quote, readString_append]
  rfl

theorem reads_array {items : List Json}
    (hitems : ∀ item ∈ items, item.IsFloatFree ∧ Reads readItem item) :
    Reads (readValueWith (some readItem)) (array items) := by
  intro left _
  rw [compactChars, List.append_assoc, List.singleton_append, List.cons_append,
    readValueWith_bracket, readArray_itemChars hitems]
  rfl

theorem reads_object {members : Members} (hkeys : (keys members).Nodup)
    (hmembers : ∀ member ∈ members, Reads readItem member.2) :
    Reads (readValueWith (some readItem)) (object members) := by
  intro left _
  rw [compactChars, List.append_assoc, List.singleton_append, List.cons_append,
    readValueWith_brace, readObject_memberChars hkeys hmembers]
  rfl

/-- A value that opens no brackets is read whether or not any may be opened. -/
theorem reads_of_nesting_eq_zero {value : Json} (hfree : value.IsFloatFree)
    (h : value.nesting = 0) : Reads (readValueWith nested) value := by
  cases hfree with
  | null => exact fun _ _ => rfl
  | bool value => cases value <;> exact fun _ _ => rfl
  | integer value => exact reads_integer value
  | string text => exact reads_string text
  | array items => cases h
  | object members => cases h

end

theorem IsReadable.of_mem_items {items : List Json} {depth : Nat}
    (h : IsReadable (depth + 1) (Json.array items)) {item : Json} (hmem : item ∈ items) :
    IsReadable depth item := by
  obtain ⟨hkeys, hnesting⟩ := h
  cases hkeys with
  | array _ hitems =>
    exact ⟨hitems item hmem, nestingOfItems_le_iff.mp (Nat.le_of_succ_le_succ hnesting) item hmem⟩

theorem IsReadable.of_mem_members {members : Members} {depth : Nat}
    (h : IsReadable (depth + 1) (Json.object members)) {member : String × Json}
    (hmem : member ∈ members) : IsReadable depth member.2 := by
  obtain ⟨hkeys, hnesting⟩ := h
  cases hkeys with
  | object _ _ hmembers =>
    exact ⟨hmembers member hmem,
      nestingOfMembers_le_iff.mp (Nat.le_of_succ_le_succ hnesting) member hmem⟩

theorem readValue_zero : readValue 0 = readValueWith none :=
  funext fun _ => by rw [readValue]

theorem readValue_succ (depth : Nat) :
    readValue (depth + 1) = readValueWith (some (readValue depth)) :=
  funext fun _ => by rw [readValue]

/-- A value without floats is read from its compact text, to any depth to which it is readable. -/
theorem reads_readValue {depth : Nat} {value : Json} (hfree : value.IsFloatFree)
    (h : IsReadable depth value) : Reads (readValue depth) value := by
  -- The induction is on the depth, as the reader of what is inside brackets has one less.
  induction depth generalizing value with
  | zero =>
    rw [readValue_zero]
    exact reads_of_nesting_eq_zero hfree (Nat.le_zero.mp h.nesting_le)
  | succ depth ih =>
    rw [readValue_succ]
    cases hfree with
    | null => exact reads_of_nesting_eq_zero .null rfl
    | bool value => exact reads_of_nesting_eq_zero (.bool value) rfl
    | integer value => exact reads_integer value
    | string text => exact reads_string text
    | array items hitems =>
      exact reads_array fun item hmem =>
        ⟨hitems item hmem, ih (hitems item hmem) (h.of_mem_items hmem)⟩
    | object members hmembers =>
      have hkeys : (keys members).Nodup := by
        cases h.hasDistinctKeys
        assumption
      exact reads_object hkeys fun member hmem =>
        ih (hmembers member hmem) (h.of_mem_members hmem)

/-! ### Texts -/

theorem readTo_compact {depth : Nat} {value : Json} (hfree : value.IsFloatFree)
    (h : IsReadable depth value) : readTo depth value.compact = .ok value := by
  have hread := reads_readValue hfree h [] .nil
  rw [List.append_nil] at hread
  rw [readTo, compact, String.toList_ofList, readDocument, hread]
  rfl

/-- A value without floats is read from its compact text exactly if its keys are distinct and it is
nested to the limit at most. -/
theorem read_compact_eq_ok_iff {value : Json} (hfree : value.IsFloatFree) :
    read value.compact = .ok value ↔ IsReadable nestingLimit value :=
  ⟨isReadable_of_read, readTo_compact hfree⟩

/-- The compact text tells a value from all others, however deep they are nested. -/
theorem eq_of_compact_eq {value other : Json} (hfree : value.IsFloatFree)
    (hother : other.IsFloatFree) (hkeys : value.HasDistinctKeys)
    (hkeys' : other.HasDistinctKeys) (h : value.compact = other.compact) : value = other := by
  -- Both are read to a depth that is enough for either.
  have hread := readTo_compact hfree ⟨hkeys, Nat.le_max_left value.nesting other.nesting⟩
  rw [h, readTo_compact hother ⟨hkeys', Nat.le_max_right _ _⟩] at hread
  exact (Except.ok.inj hread).symm

/-- A string is shown without its quotes, so it may look like another value. -/
example : (string "null").displayed = null.displayed := rfl

/-- What the compact text of a value comes to. -/
structure Faithful (value : Json) : Prop where
  /-- The text is read as the value, with all keys in their order. -/
  read_compact : read value.compact = .ok value
  /-- The text gives the same settings as the value, or the same error. -/
  ofText_compact : Settings.ofText value.compact = Settings.ofJson value
  /-- The text is what is shown of the value, unless that is a string. -/
  displayed_eq : ¬ value.IsString → value.displayed = value.compact
  /-- Where the value and another are the data of violations, and neither is a string, different
  texts are shown of them. -/
  dataText_ne : ∀ violation other : Violation, violation.data = value → ¬ value.IsString →
    other.data.IsFloatFree → IsReadable nestingLimit other.data → ¬ other.data.IsString →
    violation.data ≠ other.data → violation.dataText ≠ other.dataText

/-- The compact text is faithful to a value without floats, if it has distinct keys and is nested to
the limit at most. -/
theorem faithful_of_isFloatFree {value : Json} (hfree : value.IsFloatFree)
    (h : IsReadable nestingLimit value) : Faithful value where
  read_compact := readTo_compact hfree h
  ofText_compact := by rw [Settings.ofText, read, readTo_compact hfree h]
  displayed_eq := displayed_of_not_isString
  dataText_ne := by
    rintro violation other rfl hstring hother hother' hstring' hne htext
    rw [Violation.dataText, Violation.dataText, displayed_of_not_isString hstring,
      displayed_of_not_isString hstring'] at htext
    exact hne (eq_of_compact_eq hfree hother h.hasDistinctKeys hother'.hasDistinctKeys htext)

/-- A document with the least and the greatest integer, brackets in each other, brackets without
anything in them, and a key and a string that need escapes. -/
def intricateDocument : Json :=
  object [("channelCapacity", integer ⟨greatestInteger, by decide, by decide⟩),
    ("rules", object [("babel \x22\\\n", null),
      ("tsc", array [integer ⟨leastInteger, by decide, by decide⟩, array [], string "\x1f é"])])]

theorem faithful_intricateDocument :
    intricateDocument.IsFloatFree ∧ IsReadable nestingLimit intricateDocument ∧
      Faithful intricateDocument := by
  have hfree : intricateDocument.IsFloatFree := by
    refine .object _ (List.forall_mem_cons.mpr ⟨.integer _, List.forall_mem_singleton.mpr ?_⟩)
    refine .object _ (List.forall_mem_cons.mpr ⟨.null, List.forall_mem_singleton.mpr ?_⟩)
    refine .array _ (List.forall_mem_cons.mpr ⟨.integer _, List.forall_mem_cons.mpr ⟨?_, ?_⟩⟩)
    · exact .array _ (List.forall_mem_nil _)
    · exact List.forall_mem_singleton.mpr (.string _)
  have hread : IsReadable nestingLimit intricateDocument := by
    refine .object (by decide) (List.forall_mem_cons.mpr ⟨?_, List.forall_mem_singleton.mpr ?_⟩)
    · exact (IsNumber.integer _).isReadable _
    refine .object (by decide) (List.forall_mem_cons.mpr ⟨.null, List.forall_mem_singleton.mpr ?_⟩)
    refine .array (List.forall_mem_cons.mpr ⟨?_, List.forall_mem_cons.mpr ⟨?_, ?_⟩⟩)
    · exact (IsNumber.integer _).isReadable _
    · exact .array (List.forall_mem_nil _)
    · exact List.forall_mem_singleton.mpr (.string _)
  exact ⟨hfree, hread, faithful_of_isFloatFree hfree hread⟩

end ConfigDiagnostics.Json
