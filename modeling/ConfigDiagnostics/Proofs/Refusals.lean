import ConfigDiagnostics.Refusal
import Mathlib.Algebra.Free

/-!
# Refusals are combined freely

A collection of refusals is a list that is not empty, and combining two collections puts one list
after the other. So it does not matter how combinations are bracketed, and a way to add up refusals
is known from what it makes of single ones: collections are the free semigroup on refusals.

## Main definitions

* `Refusals.item?`: going through the refusals one after another
* `Refusals.combine?`, `Refusals.reduce?`: combining what may be nothing, and combining many
* `Refusals.Combination`: lists of refusals, combined in any nesting
* `Refusals.CombinesFreely`: what it means that refusals are combined freely

## Main results

* `Refusals.ofList?_append`: making a collection of two lists combines the collections of each
* `Refusals.reduce?_eq_ofList?`: combining many puts their lists one after another
* `Refusals.Combination.refusals?_eq_ofList?`: in any nesting nothing is lost, doubled or moved
* `Refusals.existsUnique_total`: refusals are the free semigroup
* `Refusals.combinesFreely`: all of this together
-/

namespace ConfigDiagnostics.Refusals

universe u

variable {refusals : Refusals} {list others : List Refusal}

/-! ### Collections and lists -/

/-- The refusal that comes at a position when the refusals are gone through from the first. -/
def item? (refusals : Refusals) : Nat → Option Refusal
  | 0 => some refusals.first
  | position + 1 => refusals.others[position]?

theorem item?_eq_getElem? (refusals : Refusals) (position : Nat) :
    refusals.item? position = refusals.toList[position]? := by
  cases position <;> rfl

theorem ofList?_eq_some_iff : ofList? list = some refusals ↔ refusals.toList = list := by
  constructor
  · intro h
    cases list with
    | nil => cases h
    | cons first rest =>
      obtain rfl := Option.some.inj h
      rfl
  · rintro rfl
    exact ofList?_toList refusals

theorem ofList?_eq_none_iff : ofList? list = none ↔ list = [] := by
  cases list with
  | nil => exact ⟨fun _ => rfl, fun _ => rfl⟩
  | cons first rest => exact ⟨nofun, nofun⟩

theorem exists_ofList?_eq (h : list ≠ []) : ∃ refusals, ofList? list = some refusals := by
  rwa [← Option.ne_none_iff_exists', ne_eq, ofList?_eq_none_iff]

/-! ### Combining -/

theorem append_assoc (first second third : Refusals) :
    first ++ second ++ third = first ++ (second ++ third) := by
  apply ext_toList
  simp only [toList_append, List.append_assoc]

/-- Combining what may be nothing: nothing adds nothing. -/
def combine? (earlier later : Option Refusals) : Option Refusals :=
  earlier.merge (· ++ ·) later

theorem ofList?_append (list others : List Refusal) :
    ofList? (list ++ others) = combine? (ofList? list) (ofList? others) := by
  cases list with
  | nil => cases others <;> rfl
  | cons first rest =>
    cases others with
    | nil => rw [List.append_nil]; rfl
    | cons => rfl

/-- Combining collections one after another, from the first. -/
def reduce? : List Refusals → Option Refusals
  | [] => none
  | first :: rest => some (rest.foldl (· ++ ·) first)

theorem toList_foldl_append (collections : List Refusals) (first : Refusals) :
    (collections.foldl (· ++ ·) first).toList =
      first.toList ++ collections.flatMap toList := by
  induction collections generalizing first with
  | nil => exact (List.append_nil _).symm
  | cons next rest ih =>
    -- What has been combined so far is the first collection for the rest.
    rw [List.foldl_cons, ih, toList_append, List.append_assoc, List.flatMap_cons]

/-- Combining collections puts their lists one after another. -/
theorem reduce?_eq_ofList? (collections : List Refusals) :
    reduce? collections = ofList? (collections.flatMap toList) := by
  cases collections with
  | nil => rfl
  | cons first rest =>
    rw [reduce?, List.flatMap_cons, eq_comm, ofList?_eq_some_iff]
    exact toList_foldl_append rest first

/-- A collection is made of a list by combining its elements. -/
theorem ofList?_eq_reduce? (list : List Refusal) : ofList? list = reduce? (list.map single) := by
  rw [reduce?_eq_ofList?, List.flatMap_map]
  exact congrArg ofList? (List.flatMap_singleton' list).symm

/-- Lists of refusals, some of them perhaps empty, combined in any nesting: each combination may
take another one before it or after it. -/
inductive Combination where
  | given (list : List Refusal)
  | combine (earlier later : Combination)

namespace Combination

/-- The collection that a combination comes to, if it has any refusals. -/
def refusals? : Combination → Option Refusals
  | given list => ofList? list
  | combine earlier later => combine? earlier.refusals? later.refusals?

/-- The refusals that were given, in the order of the combination. -/
def listed : Combination → List Refusal
  | given list => list
  | combine earlier later => earlier.listed ++ later.listed

/-- However refusals are combined, all of them are there, once and in order. -/
theorem refusals?_eq_ofList? (combination : Combination) :
    combination.refusals? = ofList? combination.listed := by
  induction combination with
  | given list => rfl
  | combine earlier later ihEarlier ihLater =>
    rw [refusals?, listed, ihEarlier, ihLater, ofList?_append]

end Combination

/-! ### Wording -/

/-- The line of a refusal under a number. -/
def line (number : Nat) (refusal : Refusal) : String :=
  "  " ++ toString number ++ ". " ++ refusal.message ++ "\n"

theorem lines_eq_join (number : Nat) (list : List Refusal) :
    lines number list =
      String.join (List.zipWith line (List.range' number list.length) list) := by
  induction list generalizing number with
  | nil => rfl
  | cons refusal rest ih =>
    rw [lines, ih, List.length_cons, List.range'_succ, List.zipWith_cons_cons, String.join_cons]
    rfl

/-- The wording has a line for each refusal, numbered from one. -/
theorem message_eq (refusals : Refusals) : refusals.message =
    "Reporting failed with " ++ toString refusals.size ++ " error(s):\n" ++
      String.join (List.zipWith line (List.range' 1 refusals.size) refusals.toList) := by
  have hlines := lines_eq_join 1 refusals.toList
  rw [length_toList] at hlines
  unfold message
  rw [hlines]

/-! ### Freedom -/

/-- What holds of single refusals, and of one more refusal before others, holds of all. -/
theorem induction_single {motive : Refusals → Prop} (hsingle : ∀ refusal, motive (single refusal))
    (hmore : ∀ refusal rest, motive rest → motive (single refusal ++ rest)) (refusals : Refusals) :
    motive refusals := by
  obtain ⟨first, others⟩ := refusals
  induction others generalizing first with
  | nil => exact hsingle first
  | cons next rest ih => exact hmore first ⟨next, rest⟩ (ih next)

/-- The same refusals as an element of the free semigroup. -/
def toFree (refusals : Refusals) : FreeSemigroup Refusal :=
  ⟨refusals.first, refusals.others⟩

theorem toFree_append (earlier later : Refusals) :
    (earlier ++ later).toFree = earlier.toFree * later.toFree := rfl

/-- To add up refusals in a semigroup it is enough to say what each of them counts. -/
theorem existsUnique_total {S : Type u} [Semigroup S] (worth : Refusal → S) :
    ∃! total : Refusals → S, (∀ refusal, total (single refusal) = worth refusal) ∧
      ∀ earlier later, total (earlier ++ later) = total earlier * total later := by
  refine ⟨fun refusals => FreeSemigroup.lift worth refusals.toFree, ⟨fun _ => rfl, ?_⟩, ?_⟩
  · intro earlier later
    simp only [toFree_append, map_mul]
  · rintro total ⟨hsingle, happend⟩
    funext refusals
    induction refusals using induction_single with
    | hsingle refusal => exact hsingle refusal
    | hmore refusal rest ih =>
      rw [happend, hsingle, ih, toFree_append, map_mul]
      rfl

/-- Refusals are the lists that are not empty, and they are combined freely. -/
structure CombinesFreely : Prop where
  /-- There is no collection of no refusals. -/
  ofList?_eq_none_iff : ∀ list, ofList? list = none ↔ list = []
  /-- Of any others there is one. It has just these refusals, also when it is gone through, and at
  least the first of them. -/
  exists_ofList?_eq : ∀ list, list ≠ [] → ∃ refusals, ofList? list = some refusals ∧
    refusals.toList = list ∧ (∀ position, refusals.item? position = list[position]?) ∧
    refusals.size = list.length ∧ 1 ≤ refusals.size ∧ list.head? = some refusals.first
  /-- It is made by combining single refusals, from the first. -/
  ofList?_eq_reduce? : ∀ list, ofList? list = reduce? (list.map single)
  append_assoc : ∀ first second third : Refusals,
    first ++ second ++ third = first ++ (second ++ third)
  toList_append : ∀ earlier later : Refusals,
    (earlier ++ later).toList = earlier.toList ++ later.toList
  /-- What is made of two lists is combined of what is made of each. -/
  ofList?_append : ∀ list others,
    ofList? (list ++ others) = combine? (ofList? list) (ofList? others)
  /-- However lists are combined, all refusals are there, once and in order. -/
  refusals?_eq_ofList? : ∀ combination : Combination,
    combination.refusals? = ofList? combination.listed
  /-- The wording has a line for each refusal, numbered from one in that order. -/
  message_eq : ∀ refusals : Refusals, refusals.message =
    "Reporting failed with " ++ toString refusals.size ++ " error(s):\n" ++
      String.join (List.zipWith line (List.range' 1 refusals.size) refusals.toList)
  /-- Any way to add up refusals is known from what it makes of single ones, which is arbitrary. -/
  existsUnique_total : ∀ (S : Type u) [Semigroup S] (worth : Refusal → S),
    ∃! total : Refusals → S, (∀ refusal, total (single refusal) = worth refusal) ∧
      ∀ earlier later, total (earlier ++ later) = total earlier * total later

theorem combinesFreely : CombinesFreely.{u} where
  ofList?_eq_none_iff list := ofList?_eq_none_iff
  exists_ofList?_eq list hne := by
    obtain ⟨refusals, hrefusals⟩ := exists_ofList?_eq hne
    obtain rfl := ofList?_eq_some_iff.mp hrefusals
    exact ⟨refusals, hrefusals, rfl, refusals.item?_eq_getElem?, rfl, Nat.succ_pos _, rfl⟩
  ofList?_eq_reduce? := ofList?_eq_reduce?
  append_assoc := append_assoc
  toList_append := toList_append
  ofList?_append := ofList?_append
  refusals?_eq_ofList? := Combination.refusals?_eq_ofList?
  message_eq := message_eq
  existsUnique_total _ _ worth := existsUnique_total worth

end ConfigDiagnostics.Refusals
