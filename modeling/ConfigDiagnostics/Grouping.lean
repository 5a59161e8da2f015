import ConfigDiagnostics.Violation

/-!
# Violations by property

The violations of one resource are grouped by the property at which they failed. The groups come
in the order in which their properties were first met, and within a group the violations keep
their order. Beside the violations of a group stands a second list, with their positions in the
whole list, which they may need to be understood.

## Main definitions

* `Group`: the violations at one property, and their positions
* `Group.entries`: the violations of a group, each with its position
* `Group.IsAligned`: a group has as many positions as violations
* `Group.push`: a violation at the end of a group
* `Group.ofViolations`: the groups of a list of violations

## Main results

* `Group.IsAligned.push`: a violation at the end keeps a group aligned
* `Group.add_cases`: what adding a violation does to the groups
* `Group.properties_add`: a violation opens a group exactly when its property is new
-/

namespace ConfigDiagnostics

/-- The violations at one property, and their positions in the list that they come from. -/
@[ext] structure Group where
  property : String
  positions : List Nat
  violations : List Violation
  deriving Repr

namespace Group

variable {group : Group}

/-- The violations of the group, each paired with its position. -/
def entries (group : Group) : List (Nat × Violation) :=
  group.positions.zip group.violations

/-- The number of violations in the group. -/
def size (group : Group) : Nat :=
  group.violations.length

/-- The group has no violations. -/
def isEmpty (group : Group) : Bool :=
  group.violations.isEmpty

/-- The group has as many positions as violations, so that each entry has its own. -/
def IsAligned (group : Group) : Prop :=
  group.positions.length = group.violations.length

/-- The group of a property before any violation. -/
def empty (property : String) : Group where
  property
  positions := []
  violations := []

theorem isAligned_empty (property : String) : (empty property).IsAligned := rfl

theorem map_fst_entries (h : group.IsAligned) : group.entries.map Prod.fst = group.positions :=
  List.map_fst_zip (Nat.le_of_eq h)

theorem map_snd_entries (h : group.IsAligned) : group.entries.map Prod.snd = group.violations :=
  List.map_snd_zip (Nat.le_of_eq h.symm)

theorem length_entries (h : group.IsAligned) : group.entries.length = group.size := by
  rw [size, ← map_snd_entries h, List.length_map]

/-- Adds a violation at the end of the group, and its position at the end of the positions. -/
def push (group : Group) (position : Nat) (violation : Violation) : Group where
  property := group.property
  positions := group.positions ++ [position]
  violations := group.violations ++ [violation]

@[simp] theorem push_property (group : Group) (position : Nat) (violation : Violation) :
    (group.push position violation).property = group.property := rfl

@[simp] theorem push_positions (group : Group) (position : Nat) (violation : Violation) :
    (group.push position violation).positions = group.positions ++ [position] := rfl

theorem IsAligned.push (h : group.IsAligned) (position : Nat) (violation : Violation) :
    (group.push position violation).IsAligned := by
  rw [IsAligned, Group.push, List.length_append, List.length_append, h]
  rfl

/-- Adds a violation to the group of its property, which is made if there is none. -/
def add (position : Nat) (violation : Violation) : List Group → List Group
  | [] => [(empty violation.property).push position violation]
  | group :: rest =>
    if group.property = violation.property then group.push position violation :: rest
    else group :: add position violation rest

/-- The properties of groups, in order. -/
def properties (groups : List Group) : List String :=
  groups.map Group.property

/-- What adding a violation does: it opens a group of its own after all others, or it comes last in
the group of its property, and the other groups stay as they are. -/
theorem add_cases (position : Nat) (violation : Violation) (groups : List Group) :
    (violation.property ∉ properties groups ∧ add position violation groups =
      groups ++ [(empty violation.property).push position violation]) ∨
    ∃ before group after, groups = before ++ group :: after ∧
      group.property = violation.property ∧
      add position violation groups = before ++ group.push position violation :: after := by
  induction groups with
  | nil => exact .inl ⟨List.not_mem_nil, rfl⟩
  | cons first rest ih =>
    by_cases heq : first.property = violation.property
    · refine .inr ⟨[], first, rest, rfl, heq, ?_⟩
      rw [add, if_pos heq]
      rfl
    · rw [add, if_neg heq]
      rcases ih with ⟨hnew, hadd⟩ | ⟨before, group, after, hrest, hproperty, hadd⟩
      · refine .inl ⟨?_, by rw [hadd, List.cons_append]⟩
        rw [properties, List.map_cons, List.mem_cons]
        exact not_or.mpr ⟨Ne.symm heq, hnew⟩
      · refine .inr ⟨first :: before, group, after, ?_, hproperty, ?_⟩
        · rw [hrest, List.cons_append]
        · rw [hadd, List.cons_append]

theorem properties_add (position : Nat) (violation : Violation) (groups : List Group) :
    properties (add position violation groups) =
      if violation.property ∈ properties groups then properties groups
      else properties groups ++ [violation.property] := by
  rcases add_cases position violation groups with
    ⟨hnew, hadd⟩ | ⟨before, group, after, rfl, hproperty, hadd⟩
  · rw [hadd, if_neg hnew, properties, List.map_append]
    rfl
  · have hmem : violation.property ∈ properties (before ++ group :: after) := by
      rw [← hproperty]
      exact List.mem_map_of_mem (List.mem_append_right before List.mem_cons_self)
    rw [hadd, if_pos hmem, properties, properties, List.map_append, List.map_append]
    rfl

/-- The groups of a list of violations. -/
def ofViolations (violations : List Violation) : List Group :=
  violations.zipIdx.foldl (fun groups entry => add entry.2 entry.1 groups) []

end Group

end ConfigDiagnostics
