import ConfigDiagnostics.Json.Reader
import Mathlib.Data.List.Nodup

/-!
# What texts are read as

A text is read as a value in which the keys of each object are distinct, as a key that is given
again takes the place of the one before, and in which brackets and braces are nested no deeper than
the limit.

## Main definitions

* `Json.Yields`: whatever a reading gives has a property
* `Json.IsReadable`: distinct keys, and brackets and braces to a depth

## Main results

* `Json.yields_readMembers`: the members that are read have distinct keys
* `Json.yields_readValue`: a value that is read to a depth is readable to it
* `Json.isReadable_of_read`: so is what a text is read as
-/

namespace ConfigDiagnostics.Json

variable {α β : Type} {P : α → Prop} {Q : β → Prop}

/-- Whatever the reading gives has the property. -/
def Yields (P : α → Prop) (reading : Reading α) : Prop :=
  ∀ value left, reading = .ok (value, left) → P value

@[simp] theorem yields_ok_iff {value : α} {left : List Char} :
    Yields P (.ok (value, left)) ↔ P value := by
  constructor
  · intro h
    exact h value left rfl
  · rintro h _ _ ⟨⟩
    exact h

@[simp] theorem yields_error (stop : Stop) : Yields P (.error stop) := nofun

@[simp] theorem yields_stopAt (fault : Fault) (left : List Char) : Yields P (stopAt fault left) :=
  yields_error _

@[simp] theorem yields_stopBefore (fault : Fault) (left : List Char) :
    Yields P (stopBefore fault left) :=
  yields_error _

theorem Yields.map {reading : Reading α} (h : Yields P reading) {f : α → β}
    (hf : ∀ value, P value → Q (f value)) :
    Yields Q (reading.map fun (value, left) => (f value, left)) := by
  match reading, h with
  | .error _, _ => exact yields_error _
  | .ok (value, left), h => exact yields_ok_iff.mpr (hf value (yields_ok_iff.mp h))

/-! ### Numbers -/

/-- The value is a number. -/
inductive IsNumber : Json → Prop
  | integer (value : Integer) : IsNumber (integer value)
  | float (value : Binary64) : IsNumber (float value)

section

variable {negative divides : Bool} {number : Decimal} {whole chars left : List Char}

theorem yields_readFloat : Yields IsNumber (readFloat negative number left) := by
  rw [readFloat]
  split
  · exact yields_ok_iff.mpr (.float _)
  · simp

theorem yields_scaled : Yields IsNumber (scaled negative number divides chars) := by
  rw [scaled.eq_def]
  split
  · simp
  · split
    · split
      · exact yields_readFloat
      · split
        · exact yields_ok_iff.mpr (.float _)
        · simp
    · simp

theorem yields_readExponent : Yields IsNumber (readExponent negative number chars) := by
  rw [readExponent.eq_def]
  split <;> exact yields_scaled

theorem yields_readFraction : Yields IsNumber (readFraction negative whole chars) := by
  rw [readFraction]
  split
  · split <;> simp
  · dsimp only
    split
    · exact yields_readExponent
    · exact yields_readExponent
    · exact yields_readFloat

theorem yields_wholeNumber : Yields IsNumber (wholeNumber negative whole left) := by
  rw [wholeNumber]
  split
  · exact yields_ok_iff.mpr (.float _)
  · split
    · exact yields_ok_iff.mpr (.integer _)
    · exact yields_readFloat

theorem yields_readAfterWhole : Yields IsNumber (readAfterWhole negative whole chars) := by
  rw [readAfterWhole.eq_def]
  split
  · exact yields_readFraction
  · exact yields_readExponent
  · exact yields_readExponent
  · exact yields_wholeNumber

theorem yields_readNumber : Yields IsNumber (readNumber negative chars) := by
  rw [readNumber.eq_def]
  split
  · simp
  · split
    · split
      · exact yields_readAfterWhole
      · simp
    · split
      · exact yields_readAfterWhole
      · simp

end

/-! ### Arrays and objects -/

theorem mem_put {key : String} {value : Json} {members : Members} {member : String × Json}
    (h : member ∈ put key value members) : member = (key, value) ∨ member ∈ members := by
  induction members with
  | nil => exact .inl (List.mem_singleton.mp h)
  | cons first rest ih =>
    obtain ⟨k, v⟩ := first
    rw [put] at h
    split at h
    · exact (List.mem_cons.mp h).imp_right (List.mem_cons_of_mem _)
    · rcases List.mem_cons.mp h with hfirst | hrest
      · exact .inr (List.mem_cons.mpr (.inl hfirst))
      · exact (ih hrest).imp_right (List.mem_cons_of_mem _)

theorem nodup_keys_put (key : String) (value : Json) {members : Members}
    (h : (keys members).Nodup) : (keys (put key value members)).Nodup := by
  rw [keys_put]
  split
  · exact h
  · rename_i hnot
    exact List.concat_eq_append ▸ h.concat hnot

section

variable {P : Json → Prop} {readItem : List Char → Reading Json}
  (hitem : ∀ chars, Yields P (readItem chars))
include hitem

theorem yields_readItems {read : List Json} (hread : ∀ item ∈ read, P item) (rounds : Nat)
    (chars : List Char) :
    Yields (fun items => ∀ item ∈ items, P item) (readItems readItem read rounds chars) := by
  induction rounds generalizing read chars with
  | zero => simp [readItems]
  | succ rounds ih =>
    rw [readItems]
    cases hreading : readItem chars with
    | error _ => simp
    | ok given =>
      obtain ⟨item, left⟩ := given
      have hcons : ∀ other ∈ item :: read, P other :=
        List.forall_mem_cons.mpr ⟨hitem chars item left hreading, hread⟩
      dsimp only
      split
      · simp
      · refine yields_ok_iff.mpr fun other hother => hcons other ?_
        exact List.mem_reverse.mp hother
      · split
        · simp
        · simp
        · exact ih hcons _
      · simp

theorem yields_readArray (chars : List Char) :
    Yields (fun items => ∀ item ∈ items, P item) (readArray readItem chars) := by
  rw [readArray]
  split
  · simp
  · exact yields_ok_iff.mpr (List.forall_mem_nil _)
  · exact yields_readItems hitem (List.forall_mem_nil _) _ _

theorem yields_readMember (chars : List Char) :
    Yields (fun member => P member.2) (readMember readItem chars) := by
  rw [readMember]
  split
  · simp
  · split
    · simp
    · split
      · simp
      · rename_i hreading
        exact yields_ok_iff.mpr (hitem _ _ _ hreading)
    · simp

theorem yields_readMembers {read : Members} (hkeys : (keys read).Nodup)
    (hread : ∀ member ∈ read, P member.2) (rounds : Nat) (chars : List Char) :
    Yields (fun members => (keys members).Nodup ∧ ∀ member ∈ members, P member.2)
      (readMembers readItem read rounds chars) := by
  induction rounds generalizing read chars with
  | zero => simp [readMembers]
  | succ rounds ih =>
    rw [readMembers]
    cases hreading : readMember readItem chars with
    | error _ => simp
    | ok given =>
      obtain ⟨⟨key, value⟩, left⟩ := given
      have hvalue : P value := yields_readMember hitem chars (key, value) left hreading
      have hkeys' := nodup_keys_put key value hkeys
      have hread' : ∀ member ∈ put key value read, P member.2 := by
        intro member hmember
        rcases mem_put hmember with rfl | hmem
        · exact hvalue
        · exact hread member hmem
      dsimp only
      split
      · simp
      · exact yields_ok_iff.mpr ⟨hkeys', hread'⟩
      · split
        · simp
        · exact ih hkeys' hread' _
        · simp
        · simp
      · simp

theorem yields_readObject (chars : List Char) :
    Yields (fun members => (keys members).Nodup ∧ ∀ member ∈ members, P member.2)
      (readObject readItem chars) := by
  have hkeys : (keys []).Nodup := List.nodup_nil
  rw [readObject]
  split
  · simp
  · exact yields_readMembers hitem hkeys (List.forall_mem_nil _) _ _
  · exact yields_ok_iff.mpr ⟨hkeys, List.forall_mem_nil _⟩
  · simp

end

/-! ### Values -/

theorem nestingOfItems_le_iff {items : List Json} {depth : Nat} :
    nestingOfItems items ≤ depth ↔ ∀ item ∈ items, item.nesting ≤ depth := by
  induction items with
  | nil => simp [nestingOfItems]
  | cons item rest ih => rw [nestingOfItems, Nat.max_le, ih, List.forall_mem_cons]

theorem nestingOfMembers_le_iff {members : Members} {depth : Nat} :
    nestingOfMembers members ≤ depth ↔ ∀ member ∈ members, member.2.nesting ≤ depth := by
  induction members with
  | nil => simp [nestingOfMembers]
  | cons member rest ih =>
    obtain ⟨key, value⟩ := member
    rw [nestingOfMembers, Nat.max_le, ih, List.forall_mem_cons]

/-- The value has distinct keys, and brackets and braces that are nested to the depth at most. -/
structure IsReadable (depth : Nat) (value : Json) : Prop where
  hasDistinctKeys : value.HasDistinctKeys
  nesting_le : value.nesting ≤ depth

namespace IsReadable

variable {depth : Nat}

theorem null : IsReadable depth null := ⟨.null, Nat.zero_le _⟩

theorem bool (value : Bool) : IsReadable depth (bool value) := ⟨.bool value, Nat.zero_le _⟩

theorem string (text : String) : IsReadable depth (string text) := ⟨.string text, Nat.zero_le _⟩

theorem array {items : List Json} (h : ∀ item ∈ items, IsReadable depth item) :
    IsReadable (depth + 1) (array items) where
  hasDistinctKeys := .array items fun item hmem => (h item hmem).hasDistinctKeys
  nesting_le :=
    Nat.succ_le_succ (nestingOfItems_le_iff.mpr fun item hmem => (h item hmem).nesting_le)

theorem object {members : Members} (hkeys : (keys members).Nodup)
    (h : ∀ member ∈ members, IsReadable depth member.2) :
    IsReadable (depth + 1) (object members) where
  hasDistinctKeys := .object members hkeys fun member hmem => (h member hmem).hasDistinctKeys
  nesting_le :=
    Nat.succ_le_succ (nestingOfMembers_le_iff.mpr fun member hmem => (h member hmem).nesting_le)

end IsReadable

theorem IsNumber.isReadable {value : Json} (h : IsNumber value) (depth : Nat) :
    IsReadable depth value := by
  cases h with
  | integer value => exact ⟨.integer value, Nat.zero_le _⟩
  | float value => exact ⟨.float value, Nat.zero_le _⟩

theorem yields_readWord {P : Json → Prop} {value : Json} (h : P value) (word chars : List Char) :
    Yields P (readWord value word chars) := by
  induction word generalizing chars with
  | nil => exact yields_ok_iff.mpr h
  | cons expected word ih =>
    cases chars with
    | nil => simp [readWord]
    | cons c left =>
      rw [readWord]
      split
      · exact ih left
      · simp

/-- Where the values inside brackets are readable, if there may be any, so is the whole. -/
theorem yields_readValueWith {nested : Option (List Char → Reading Json)} {depth : Nat}
    (hnested : ∀ readItem, nested = some readItem →
      ∃ inner, depth = inner + 1 ∧ ∀ chars, Yields (IsReadable inner) (readItem chars))
    (chars : List Char) : Yields (IsReadable depth) (readValueWith nested chars) := by
  have hnumber (negative : Bool) (chars : List Char) :
      Yields (IsReadable depth) (readNumber negative chars) :=
    fun value left h => (yields_readNumber value left h).isReadable depth
  rw [readValueWith]
  split
  · simp
  · repeat' split
    · exact yields_readWord .null _ _
    · exact yields_readWord (.bool true) _ _
    · exact yields_readWord (.bool false) _ _
    · exact hnumber _ _
    · exact hnumber _ _
    · exact Yields.map (P := fun _ => True) (fun _ _ _ => trivial) fun text _ => .string text
    · simp
    · obtain ⟨inner, rfl, hitem⟩ := hnested _ rfl
      exact (yields_readArray hitem _).map fun _ h => .array h
    · simp
    · obtain ⟨inner, rfl, hitem⟩ := hnested _ rfl
      exact (yields_readObject hitem _).map fun _ h => .object h.1 h.2
    · simp

theorem yields_readValue (depth : Nat) (chars : List Char) :
    Yields (IsReadable depth) (readValue depth chars) := by
  induction depth generalizing chars with
  | zero =>
    rw [readValue]
    refine yields_readValueWith ?_ chars
    rintro _ ⟨⟩
  | succ depth ih =>
    rw [readValue]
    refine yields_readValueWith ?_ chars
    rintro _ ⟨⟩
    exact ⟨depth, rfl, ih⟩

theorem isReadable_of_readDocument {depth : Nat} {chars : List Char} {value : Json}
    (h : readDocument depth chars = .ok value) : IsReadable depth value := by
  rw [readDocument] at h
  split at h
  · cases h
  · rename_i hreading
    split at h
    · obtain rfl := Except.ok.inj h
      exact yields_readValue depth chars _ _ hreading
    · cases h

/-- What a text is read as has distinct keys and is nested to the limit at most. -/
theorem isReadable_of_read {text : String} {value : Json} (h : read text = .ok value) :
    IsReadable nestingLimit value := by
  rw [read, readTo] at h
  split at h
  · rename_i hdocument
    obtain rfl := Except.ok.inj h
    exact isReadable_of_readDocument hdocument
  · cases h

end ConfigDiagnostics.Json
