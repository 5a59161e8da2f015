import ConfigDiagnostics.Json.Compact
import ConfigDiagnostics.Json.Reader
import Mathlib.Tactic.SplitIfs

/-!
# Integers and strings are read as they are spelled

In a compact text an integer ends where a comma, a closing bracket or the text's end comes, and a
string ends at its second quote. So a reader that starts at an integer or a string takes all of its
characters, none of those after them, and gives the integer or the string again.

## Main definitions

* `Json.EndsValue`: what can follow a value in a compact text

## Main results

* `Json.readNumber_toDigits`: the digits of a number are all read, up to what follows them
* `Json.readStringFrom_escaped`: a character is read as it is escaped
* `Json.readString_append`: a string is read up to its closing quote
-/

namespace ConfigDiagnostics.Json

/-- What can follow a value in a compact text: nothing, a comma, or the end of a list of items or
members. -/
inductive EndsValue : List Char → Prop
  | nil : EndsValue []
  | comma (left : List Char) : EndsValue (',' :: left)
  | bracket (left : List Char) : EndsValue (']' :: left)
  | brace (left : List Char) : EndsValue ('\x7d' :: left)

/-! ### Integers -/

theorem ne_of_isDigit {c d : Char} (hc : c.isDigit) (hd : d.isDigit = false) : c ≠ d := by
  rintro rfl
  rw [hc] at hd
  cases hd

/-- A number above zero has no leading zero. -/
theorem exists_toDigits_eq_cons {number : Nat} (h : 0 < number) :
    ∃ c rest, Nat.toDigits 10 number = c :: rest ∧ c ≠ '0' := by
  induction number using Nat.strongRecOn with
  | ind number ih =>
    rw [Nat.toDigits_eq_if (by decide)]
    split
    · exact ⟨_, [], rfl, mt Nat.digitChar_eq_zero.mp (Nat.ne_of_gt h)⟩
    · obtain ⟨c, rest, hdigits, hc⟩ := ih (number / 10) (by omega) (by omega)
      rw [hdigits]
      exact ⟨c, _, List.cons_append, hc⟩

theorem isDigit_of_toDigits_eq_cons {number : Nat} {c : Char} {rest : List Char}
    (h : Nat.toDigits 10 number = c :: rest) : ∀ d ∈ c :: rest, d.isDigit := by
  intro d hd
  rw [← h] at hd
  exact Nat.isDigit_of_mem_toDigits (by decide) (by decide) hd

namespace EndsValue

variable {left : List Char} (h : EndsValue left)
include h

theorem takeWhile_isDigit : left.takeWhile Char.isDigit = [] := by
  cases h <;> rfl

theorem dropWhile_isDigit : left.dropWhile Char.isDigit = left := by
  cases h <;> rfl

/-- A number that ends here has neither a fraction nor an exponent. -/
theorem readAfterWhole_eq (negative : Bool) (whole : List Char) :
    readAfterWhole negative whole left = wholeNumber negative whole left := by
  cases h <;> rfl

end EndsValue

variable {left : List Char}

/-- All digits of a number are read, and nothing that follows them. -/
theorem readNumber_toDigits (h : EndsValue left) (negative : Bool) (number : Nat) :
    readNumber negative (Nat.toDigits 10 number ++ left) =
      wholeNumber negative (Nat.toDigits 10 number) left := by
  rcases Nat.eq_zero_or_pos number with rfl | hpos
  · -- A zero is read apart from other digits, as nothing may follow it.
    rw [Nat.toDigits_zero, List.singleton_append, readNumber, if_pos rfl, h.takeWhile_isDigit]
    exact h.readAfterWhole_eq negative ['0']
  · obtain ⟨c, rest, hdigits, hc⟩ := exists_toDigits_eq_cons hpos
    obtain ⟨hdigit, hrest⟩ := List.forall_mem_cons.mp (isDigit_of_toDigits_eq_cons hdigits)
    rw [hdigits, List.cons_append, readNumber, if_neg hc, if_pos hdigit,
      List.takeWhile_append_of_pos hrest, List.dropWhile_append_of_pos hrest,
      h.takeWhile_isDigit, h.dropWhile_isDigit, List.append_nil]
    exact h.readAfterWhole_eq negative (c :: rest)

/-- The digits of an integer's magnitude, read with its sign, are that integer. -/
theorem wholeNumber_toDigits (value : Integer) (left : List Char) :
    wholeNumber (decide (value.value < 0)) (Nat.toDigits 10 value.value.natAbs) left =
      .ok (integer value, left) := by
  have hdigits : digitsValue (Nat.toDigits 10 value.value.natAbs) = value.value.natAbs :=
    Nat.ofDigitChars_ten_toDigits
  have hsigned : (if decide (value.value < 0) then -(value.value.natAbs : Int)
      else value.value.natAbs) = value.value := by
    simp only [decide_eq_true_eq]
    split <;> omega
  have hzero : ¬ (decide (value.value < 0) = true ∧ value.value.natAbs = 0) := by
    rw [decide_eq_true_eq]
    omega
  simp only [wholeNumber, hdigits, hsigned, if_neg hzero, Integer.ofInt?_value]

/-! ### Strings -/

section

variable {read : List Char}

theorem readStringFrom_quote :
    readStringFrom read ('\x22' :: left) = .ok (String.ofList read.reverse, left) := by
  rw [readStringFrom, if_pos rfl]

theorem readStringFrom_backslash {c : Char} {rest : List Char}
    (h : readEscape left = .ok (c, rest)) :
    readStringFrom read ('\\' :: left) = readStringFrom (c :: read) rest := by
  rw [readStringFrom, if_neg (by decide), if_pos rfl]
  split
  · rename_i hescape
    obtain ⟨rfl, rfl⟩ := Prod.mk.inj (Except.ok.inj (h.symm.trans hescape))
    rfl
  · rename_i hescape
    cases h.symm.trans hescape

theorem readStringFrom_plain {c : Char} (hquote : c ≠ '\x22') (hbackslash : c ≠ '\\')
    (hcontrol : ¬ c.toNat < 0x20) :
    readStringFrom read (c :: left) = readStringFrom (c :: read) left := by
  rw [readStringFrom, if_neg hquote, if_neg hbackslash, if_neg hcontrol]

end

theorem hexDigit?_digitChar : ∀ digit < 16, hexDigit? (Nat.digitChar digit) = some digit := by
  decide

theorem readCodeUnit_of_eq_some {a b c d : Char} {unit : Nat} (h : codeUnit? a b c d = some unit) :
    readCodeUnit (a :: b :: c :: d :: left) = .ok (unit, left) := by
  have hbytes : ¬ byteCount ((a :: b :: c :: d :: left).take 4) < 4 := by
    have ha := a.utf8Size_pos
    have hb := b.utf8Size_pos
    have hc := c.utf8Size_pos
    have hd := d.utf8Size_pos
    simp only [List.take_succ_cons, List.take_zero, byteCount]
    omega
  rw [readCodeUnit, if_neg hbytes]
  simp only [h]

/-- A control character is given by its number, which is below those of surrogates. -/
theorem readEscape_numbered {c : Char} (h : c.toNat < 0x20) :
    readEscape ('u' :: '0' :: '0' :: Nat.digitChar (c.toNat / 16) ::
      Nat.digitChar (c.toNat % 16) :: left) = .ok (c, left) := by
  have hunit : codeUnit? '0' '0' (Nat.digitChar (c.toNat / 16)) (Nat.digitChar (c.toNat % 16)) =
      some c.toNat := by
    have hzero : hexDigit? '0' = some 0 := rfl
    simp only [codeUnit?, hzero, hexDigit?_digitChar (c.toNat / 16) (by omega),
      hexDigit?_digitChar (c.toNat % 16) (by omega), Option.bind_eq_bind, Option.bind_some,
      Option.pure_def, Option.some.injEq]
    omega
  have hlow : ¬ isLowSurrogate c.toNat := by
    simp only [isLowSurrogate, Bool.and_eq_true, decide_eq_true_eq]
    omega
  have hhigh : ¬ isHighSurrogate c.toNat := by
    simp only [isHighSurrogate, Bool.and_eq_true, decide_eq_true_eq]
    omega
  rw [readEscape, if_pos rfl, readNumbered, readCodeUnit_of_eq_some hunit]
  simp only [if_neg hlow, if_neg hhigh, Char.ofNat_toNat]

/-- A character is read as it is escaped. -/
theorem readStringFrom_escaped (read : List Char) (c : Char) (left : List Char) :
    readStringFrom read (escaped c ++ left) = readStringFrom (c :: read) left := by
  rw [escaped]
  split_ifs with hquote hbackslash hb hf hn hr ht hcontrol
  · subst hquote
    exact readStringFrom_backslash rfl
  · subst hbackslash
    exact readStringFrom_backslash rfl
  · subst hb
    exact readStringFrom_backslash rfl
  · subst hf
    exact readStringFrom_backslash rfl
  · subst hn
    exact readStringFrom_backslash rfl
  · subst hr
    exact readStringFrom_backslash rfl
  · subst ht
    exact readStringFrom_backslash rfl
  · exact readStringFrom_backslash (readEscape_numbered hcontrol)
  · exact readStringFrom_plain hquote hbackslash hcontrol

theorem readStringFrom_flatMap_escaped (read chars left : List Char) :
    readStringFrom read (chars.flatMap escaped ++ '\x22' :: left) =
      .ok (String.ofList (read.reverse ++ chars), left) := by
  induction chars generalizing read with
  | nil =>
    rw [List.flatMap_nil, List.nil_append, List.append_nil]
    exact readStringFrom_quote
  | cons c rest ih =>
    rw [List.flatMap_cons, List.append_assoc, readStringFrom_escaped, ih, List.reverse_cons,
      List.append_assoc, List.singleton_append]

/-- After its opening quote, a string is read up to its closing quote. -/
theorem readString_append (text : String) (left : List Char) :
    readString (text.toList.flatMap escaped ++ '\x22' :: left) = .ok (text, left) := by
  rw [readString, readStringFrom_flatMap_escaped, List.reverse_nil, List.nil_append,
    String.ofList_toList]

end ConfigDiagnostics.Json
