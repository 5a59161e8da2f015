import Mathlib.Data.List.Perm.Basic

/-!
# Interleavings

What several writers add to one list is an interleaving of what each of them adds: it keeps the
order of each, and nothing is known of the order between them.

## Main definitions

* `Interleaves`: a list is an interleaving of lists

## Main results

* `Interleaves.perm_flatten`: an interleaving has the elements of all lists
* `Interleaves.of_perm`: the order of the lists does not matter
* `Interleaves.filter_eq`: elements that only one list has are in the order of that list
-/

namespace ConfigDiagnostics

variable {α : Type}

/-- The list is an interleaving of the lists: its first element is the first of one of them, and so
on until all of them are used up. -/
inductive Interleaves : List (List α) → List α → Prop
  | nil {lists} : (∀ list ∈ lists, list = []) → Interleaves lists []
  | cons {before first rest after all} : Interleaves (before ++ rest :: after) all →
      Interleaves (before ++ (first :: rest) :: after) (first :: all)

namespace Interleaves

variable {lists others before after : List (List α)} {all : List α}

/-- An interleaving has the elements of all lists, each as often. -/
theorem perm_flatten (h : Interleaves lists all) : all.Perm lists.flatten := by
  induction h with
  | nil hempty => rw [List.flatten_eq_nil_iff.mpr hempty]
  | @cons before first rest after all _ ih =>
    rw [List.flatten_append, List.flatten_cons] at ih ⊢
    exact (ih.cons first).trans List.perm_middle.symm

/-- The order of the lists does not matter. -/
theorem of_perm (h : Interleaves lists all) (hperm : lists.Perm others) :
    Interleaves others all := by
  induction h generalizing others with
  | nil hempty => exact .nil fun list hlist => hempty list (hperm.mem_iff.mpr hlist)
  | @cons before first rest after all _ ih =>
    have hmem : (first :: rest) ∈ others :=
      hperm.mem_iff.mp (List.mem_append_right before List.mem_cons_self)
    -- The list that goes first stands somewhere in the other order too.
    obtain ⟨before', after', rfl⟩ := List.append_of_mem hmem
    have hremaining : (before ++ after).Perm (before' ++ after') :=
      (List.perm_middle.symm.trans (hperm.trans List.perm_middle)).cons_inv
    refine .cons (ih ?_)
    exact List.perm_middle.trans ((hremaining.cons rest).trans List.perm_middle.symm)

theorem nil_cons (h : Interleaves lists all) : Interleaves ([] :: lists) all := by
  induction h with
  | nil hempty => exact .nil (List.forall_mem_cons.mpr ⟨rfl, hempty⟩)
  | @cons before first rest after all _ ih =>
    exact @cons α ([] :: before) first rest after all ih

/-- A list that has nothing adds nothing. -/
theorem insert_nil (h : Interleaves (before ++ after) all) :
    Interleaves (before ++ [] :: after) all :=
  h.nil_cons.of_perm List.perm_middle.symm

/-- What one list has first may come first. -/
theorem append_left {rest : List α} (given : List α)
    (h : Interleaves (before ++ rest :: after) all) :
    Interleaves (before ++ (given ++ rest) :: after) (given ++ all) := by
  induction given with
  | nil => exact h
  | cons first given ih => exact .cons ih

/-- The elements of one kind are interleaved as well. -/
theorem filter (p : α → Bool) (h : Interleaves lists all) :
    Interleaves (lists.map (List.filter p)) (all.filter p) := by
  induction h with
  | nil hempty =>
    refine .nil (List.forall_mem_map.mpr fun list hlist => ?_)
    rw [hempty list hlist]
    rfl
  | @cons before first rest after all _ ih =>
    rw [List.map_append, List.map_cons] at ih ⊢
    by_cases hfirst : p first = true
    · rw [List.filter_cons_of_pos hfirst, List.filter_cons_of_pos hfirst]
      exact .cons ih
    · rw [List.filter_cons_of_neg hfirst, List.filter_cons_of_neg hfirst]
      exact ih

/-- Where all other lists are empty there is one order only. -/
theorem eq_of_forall_eq_nil {list : List α} (h : Interleaves (list :: others) all)
    (hothers : ∀ other ∈ others, other = []) : all = list := by
  generalize hlists : list :: others = lists at h
  induction h generalizing list with
  | nil hempty =>
    subst hlists
    exact (hempty list List.mem_cons_self).symm
  | @cons before first rest after all _ ih =>
    -- Only the head list can go first, since the others are empty.
    cases before with
    | nil =>
      obtain ⟨rfl, rfl⟩ := List.cons.inj hlists
      exact congrArg (first :: ·) (ih rfl)
    | cons head before =>
      obtain ⟨rfl, rfl⟩ := List.cons.inj hlists
      have hmem := hothers (first :: rest) (List.mem_append_right before List.mem_cons_self)
      exact absurd hmem (List.cons_ne_nil first rest)

/-- Elements of a kind that only one list has are in the order of that list. -/
theorem filter_eq {list : List α} {p : α → Bool} (h : Interleaves (before ++ list :: after) all)
    (hothers : ∀ other ∈ before ++ after, ∀ element ∈ other, ¬ p element) :
    all.filter p = list.filter p := by
  have hfirst := (h.of_perm List.perm_middle).filter p
  rw [List.map_cons] at hfirst
  refine hfirst.eq_of_forall_eq_nil (List.forall_mem_map.mpr fun other hother => ?_)
  exact List.filter_eq_nil_iff.mpr (hothers other hother)

end Interleaves

end ConfigDiagnostics
