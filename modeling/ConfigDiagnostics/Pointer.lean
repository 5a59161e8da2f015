/-!
# Pointers into a document

A schema validator says where a document is wrong by a pointer such as `/compilerOptions/target`
or `.presets`. The pointer is kept as the validator wrote it; a sentence shows it without the
separator it starts with.

## Main definitions

* `Pointer`: a pointer as the validator wrote it
* `Pointer.property`: the pointer without its leading separator
* `Pointer.isRoot`: the pointer is at the document itself
* `Pointer.Shows`: what a sentence shows of a pointer

## Main results

* `Pointer.shows_iff`: a pointer shows its property, and nothing else
-/

namespace ConfigDiagnostics

/-- A validator's pointer into a document, kept verbatim. -/
structure Pointer where
  raw : String
  deriving DecidableEq, Repr

namespace Pointer

/-- The pointer at the whole document. -/
def root : Pointer := ⟨""⟩

/-- A pointer's characters without the one separator, `/` or `.`, that they may start with. -/
def dropSeparator : List Char → List Char
  | [] => []
  | c :: rest => if c = '/' ∨ c = '.' then rest else c :: rest

/-- The pointer as a sentence shows it: without its leading separator. -/
def property (pointer : Pointer) : String :=
  String.ofList (dropSeparator pointer.raw.toList)

/-- The pointer names no property, so it is at the document itself. -/
def isRoot (pointer : Pointer) : Bool :=
  pointer.property == ""

/-- What a sentence shows of a pointer: all that follows the one separator it starts with, or the
whole pointer where it starts with none. -/
inductive Shows : Pointer → String → Prop
  | slash (rest : String) : Shows ⟨"/" ++ rest⟩ rest
  | dot (rest : String) : Shows ⟨"." ++ rest⟩ rest
  | bare (raw : String) : (∀ c ∈ raw.toList.head?, c ≠ '/' ∧ c ≠ '.') → Shows ⟨raw⟩ raw

theorem dropSeparator_eq_self {chars : List Char} (h : ∀ c ∈ chars.head?, c ≠ '/' ∧ c ≠ '.') :
    dropSeparator chars = chars := by
  cases chars with
  | nil => rfl
  | cons c rest =>
    have hc : ¬ (c = '/' ∨ c = '.') := not_or.mpr (h c rfl)
    rw [dropSeparator, if_neg hc]

theorem Shows.property_eq {pointer : Pointer} {text : String} (h : pointer.Shows text) :
    pointer.property = text := by
  cases h with
  | slash =>
    rw [property, String.toList_append]
    exact String.ofList_toList
  | dot =>
    rw [property, String.toList_append]
    exact String.ofList_toList
  | bare _ hbare => rw [property, dropSeparator_eq_self hbare, String.ofList_toList]

theorem exists_shows (pointer : Pointer) : ∃ text, pointer.Shows text := by
  obtain ⟨raw⟩ := pointer
  cases hraw : raw.toList with
  | nil =>
    refine ⟨raw, .bare raw ?_⟩
    rw [hraw]
    exact nofun
  | cons c rest =>
    have heq : raw = String.ofList [c] ++ String.ofList rest := by
      rw [← String.toList_inj, String.toList_append, String.toList_ofList, String.toList_ofList]
      exact hraw
    by_cases hslash : c = '/'
    · rw [heq, hslash]
      exact ⟨_, .slash (String.ofList rest)⟩
    · by_cases hdot : c = '.'
      · rw [heq, hdot]
        exact ⟨_, .dot (String.ofList rest)⟩
      · refine ⟨raw, .bare raw ?_⟩
        rw [hraw]
        intro other hother
        obtain rfl : c = other := Option.some.inj hother
        exact ⟨hslash, hdot⟩

/-- A pointer shows its property, and nothing else. -/
theorem shows_iff {pointer : Pointer} {text : String} :
    pointer.Shows text ↔ pointer.property = text := by
  refine ⟨Shows.property_eq, ?_⟩
  rintro rfl
  obtain ⟨text, htext⟩ := pointer.exists_shows
  rwa [htext.property_eq]

end Pointer

end ConfigDiagnostics
