import ConfigDiagnostics.Proofs.Grouping
import Mathlib.Data.List.Nodup
import Mathlib.Data.List.Sort

/-!
# Grouping is the stable partition by property

Of all ways to divide violations into groups there is one that keeps them apart by their properties
and leaves everything else in order: the groups by when their properties are first met, and the
violations of a group by their positions, which stay beside them. Putting the violations into groups
one after another comes to just this.

## Main definitions

* `Group.gather`: the group of all violations at a property
* `Group.IsStablePartition`: the groups are the violations, kept apart by property and in order

## Main results

* `Group.properties_ofViolations`: the groups come in the order of first occurrences
* `Group.eq_gather_of_mem`: each group has all violations at its property
* `Group.eq_ofViolations_iff`: grouping gives the only stable partition
-/

namespace ConfigDiagnostics

namespace Group

variable {violations : List Violation} {violation : Violation} {groups : List Group}
  {position : Nat} {key : String}

/-- The group that holds all violations at a property, in order. -/
def gather (violations : List Violation) (key : String) : Group where
  property := key
  positions := (violations.zipIdx.filter fun entry => entry.1.property = key).map Prod.snd
  violations := violations.filter fun violation => violation.property = key

theorem violations_gather (violations : List Violation) (key : String) :
    (gather violations key).violations =
      (violations.zipIdx.filter fun entry => entry.1.property = key).map Prod.fst := by
  have hall := List.zipIdx_map_fst 0 violations
  conv_lhs => rw [gather, ← hall, List.filter_map]
  rfl

theorem isAligned_gather (violations : List Violation) (key : String) :
    (gather violations key).IsAligned := by
  rw [IsAligned, violations_gather, gather, List.length_map, List.length_map]

theorem entries_gather (violations : List Violation) (key : String) :
    (gather violations key).entries =
      (violations.zipIdx.filter fun entry => entry.1.property = key).map Prod.swap := by
  rw [entries, violations_gather, gather, List.zip_map']
  rfl

theorem mem_entries_gather :
    (position, violation) ∈ (gather violations key).entries ↔
      violations[position]? = some violation ∧ violation.property = key := by
  rw [entries_gather, List.mem_map]
  constructor
  · rintro ⟨⟨found, place⟩, hmem, heq⟩
    obtain ⟨rfl, rfl⟩ := Prod.mk.inj heq
    obtain ⟨hmem, hkey⟩ := List.mem_filter.mp hmem
    exact ⟨List.mk_mem_zipIdx_iff_getElem?.mp hmem, of_decide_eq_true hkey⟩
  · rintro ⟨hget, hkey⟩
    have hmem := List.mk_mem_zipIdx_iff_getElem?.mpr hget
    exact ⟨(violation, position), List.mem_filter.mpr ⟨hmem, decide_eq_true hkey⟩, rfl⟩

theorem mem_positions {group : Group} (h : group.IsAligned) :
    position ∈ group.positions ↔ ∃ violation, (position, violation) ∈ group.entries := by
  rw [← map_fst_entries h, List.mem_map]
  constructor
  · rintro ⟨⟨_, violation⟩, hmem, rfl⟩
    exact ⟨violation, hmem⟩
  · rintro ⟨violation, hmem⟩
    exact ⟨_, hmem, rfl⟩

theorem mem_positions_gather :
    position ∈ (gather violations key).positions ↔
      ∃ hposition : position < violations.length, violations[position].property = key := by
  rw [mem_positions (isAligned_gather violations key)]
  simp only [mem_entries_gather, List.getElem?_eq_some_iff]
  constructor
  · rintro ⟨_, ⟨hposition, rfl⟩, hproperty⟩
    exact ⟨hposition, hproperty⟩
  · rintro ⟨hposition, hproperty⟩
    exact ⟨_, ⟨hposition, rfl⟩, hproperty⟩

/-- Violations are gathered in the order of their positions. -/
theorem pairwise_positions_gather (violations : List Violation) (key : String) :
    (gather violations key).positions.Pairwise (· < ·) := by
  have hall : violations.zipIdx.Pairwise fun first second => first.2 < second.2 := by
    have hpositions : (violations.zipIdx.map Prod.snd).Pairwise (· < ·) := by
      rw [List.zipIdx_map_snd]
      exact List.pairwise_lt_range' 1
    exact List.pairwise_map.mp hpositions
  rw [gather, List.pairwise_map]
  exact hall.filter _

/-- One more violation comes last in the group of its property, and in no other. -/
theorem gather_concat (violations : List Violation) (violation : Violation) (key : String) :
    gather (violations ++ [violation]) key =
      if violation.property = key then (gather violations key).push violations.length violation
      else gather violations key := by
  have hlast : [violation].zipIdx (0 + violations.length) = [(violation, violations.length)] := by
    rw [Nat.zero_add]
    rfl
  unfold gather
  rw [List.zipIdx_append, hlast, List.filter_append, List.filter_append, List.map_append]
  by_cases hkey : violation.property = key
  · simp [push, hkey]
  · simp [hkey]

theorem nodup_properties_ofViolations (violations : List Violation) :
    (properties (ofViolations violations)).Nodup := by
  induction violations using List.reverseRecOn with
  | nil => exact .nil
  | append_singleton rest violation ih =>
    rw [ofViolations_concat, properties_add]
    by_cases hmem : violation.property ∈ properties (ofViolations rest)
    · rwa [if_pos hmem]
    · rw [if_neg hmem, ← List.concat_eq_append]
      exact ih.concat hmem

/-- A last element is one more distinct element, unless it is found before. -/
theorem eraseDups_concat (keys : List String) (key : String) :
    (keys ++ [key]).eraseDups = if key ∈ keys then keys.eraseDups else keys.eraseDups ++ [key] := by
  rw [List.eraseDups_append, List.removeAll]
  by_cases hmem : key ∈ keys
  · simp [hmem]
  · simp [hmem, List.eraseDups_cons]

/-- The groups come in the order in which their properties are first met. -/
theorem properties_ofViolations (violations : List Violation) :
    properties (ofViolations violations) = (violations.map Violation.property).eraseDups := by
  induction violations using List.reverseRecOn with
  | nil => rfl
  | append_singleton rest violation ih =>
    rw [ofViolations_concat, properties_add, ih, List.map_append, List.map_singleton,
      eraseDups_concat]
    simp only [List.mem_eraseDups]

theorem mem_properties_ofViolations :
    key ∈ properties (ofViolations violations) ↔ key ∈ violations.map Violation.property := by
  rw [properties_ofViolations, List.mem_eraseDups]

/-- No violation is gathered at a property that no violation has. -/
theorem gather_of_notMem (h : key ∉ violations.map Violation.property) :
    gather violations key = empty key := by
  have hviolations : (gather violations key).violations = [] := by
    rw [gather, List.filter_eq_nil_iff]
    intro violation hmem hkey
    exact h (List.mem_map.mpr ⟨violation, hmem, of_decide_eq_true hkey⟩)
  have hpositions : (gather violations key).positions = [] := by
    have haligned := isAligned_gather violations key
    rw [IsAligned, hviolations] at haligned
    exact List.eq_nil_of_length_eq_zero haligned
  exact Group.ext rfl hpositions hviolations

/-- Where properties are distinct, a group has another one than those before and after it. -/
theorem property_ne_of_nodup {before after : List Group} {first group : Group}
    (hnodup : (properties (before ++ first :: after)).Nodup) (hgroup : group ∈ before ++ after) :
    first.property ≠ group.property := by
  rw [properties, List.map_append, List.map_cons, List.nodup_middle, ← List.map_append] at hnodup
  intro heq
  exact (List.nodup_cons.mp hnodup).1 (heq ▸ List.mem_map_of_mem hgroup)

/-- Each group holds all violations at its property. -/
theorem eq_gather_of_mem {group : Group} (hgroup : group ∈ ofViolations violations) :
    group = gather violations group.property := by
  induction violations using List.reverseRecOn generalizing group with
  | nil => exact absurd hgroup List.not_mem_nil
  | append_singleton rest violation ih =>
    rw [ofViolations_concat] at hgroup
    rw [gather_concat]
    rcases add_cases rest.length violation (ofViolations rest) with
      ⟨hnew, hadd⟩ | ⟨before, first, after, hsplit, hproperty, hadd⟩
    · rw [hadd, List.mem_append, List.mem_singleton] at hgroup
      rcases hgroup with hgroup | rfl
      · have hne : violation.property ≠ group.property := by
          intro heq
          exact hnew (heq ▸ List.mem_map_of_mem hgroup)
        rw [if_neg hne]
        exact ih hgroup
      · -- No violation before this one was at the property.
        rw [mem_properties_ofViolations] at hnew
        have hkey : ((empty violation.property).push rest.length violation).property =
          violation.property := rfl
        rw [hkey, if_pos rfl, gather_of_notMem hnew]
    · rw [hadd, List.perm_middle.mem_iff, List.mem_cons] at hgroup
      have hmem : ∀ other, other = first ∨ other ∈ before ++ after → other ∈ ofViolations rest := by
        intro other hother
        rwa [hsplit, List.perm_middle.mem_iff, List.mem_cons]
      rcases hgroup with rfl | hgroup
      · have hfirst := ih (hmem first (.inl rfl))
        rw [push_property, if_pos hproperty.symm, ← hfirst]
      · -- The group of the property is the only one, so this one is at another.
        have hnodup := nodup_properties_ofViolations rest
        rw [hsplit] at hnodup
        have hne := property_ne_of_nodup hnodup hgroup
        rw [hproperty] at hne
        rw [if_neg hne]
        exact ih (hmem group (.inr hgroup))

/-- The groups are the stable partition of the violations by their properties. -/
structure IsStablePartition (violations : List Violation) (groups : List Group) : Prop where
  /-- No two groups are at the same property. -/
  nodup_properties : (properties groups).Nodup
  /-- The properties are those of the violations, in the order in which they are first met. -/
  properties_eq : properties groups = (violations.map Violation.property).eraseDups
  /-- No group is empty. -/
  ne_nil : ∀ group ∈ groups, group.violations ≠ [] ∧ group.isEmpty = false
  /-- Each position is in one group, once. -/
  positions_perm : (groups.flatMap positions).Perm (List.range violations.length)
  /-- In a group the positions increase. -/
  pairwise_lt : ∀ group ∈ groups, group.positions.Pairwise (· < ·)
  /-- A group has as many positions as violations. -/
  length_eq : ∀ group ∈ groups,
    group.positions.length = group.violations.length ∧ group.violations.length = group.size
  /-- The entries pair the positions with the violations, in order and without leaving one out. -/
  map_entries : ∀ group ∈ groups, group.entries.map Prod.fst = group.positions ∧
    group.entries.map Prod.snd = group.violations
  /-- An entry has the violation that stands at its position, and the pointer of the violation shows
  the property of the group. -/
  entry : ∀ group ∈ groups, ∀ position violation, (position, violation) ∈ group.entries →
    violations[position]? = some violation ∧ violation.pointer.Shows group.property
  /-- Two violations are in the same group exactly if they are at the same property. -/
  same_group_iff : ∀ position other (hposition : position < violations.length)
    (hother : other < violations.length),
    (∃ group ∈ groups, position ∈ group.positions ∧ other ∈ group.positions) ↔
      violations[position].property = violations[other].property

/-- Grouping gives a stable partition. -/
theorem isStablePartition_ofViolations (violations : List Violation) :
    IsStablePartition violations (ofViolations violations) where
  nodup_properties := nodup_properties_ofViolations violations
  properties_eq := properties_ofViolations violations
  ne_nil group hgroup := by
    have hkey : group.property ∈ violations.map Violation.property := by
      rw [← mem_properties_ofViolations]
      exact List.mem_map_of_mem hgroup
    obtain ⟨violation, hmem, hproperty⟩ := List.mem_map.mp hkey
    have hne : group.violations ≠ [] := by
      rw [eq_gather_of_mem hgroup]
      exact List.ne_nil_of_mem (List.mem_filter.mpr ⟨hmem, decide_eq_true hproperty⟩)
    exact ⟨hne, List.isEmpty_eq_false_iff.mpr hne⟩
  positions_perm := flatMap_positions_ofViolations violations
  pairwise_lt group hgroup := by
    rw [eq_gather_of_mem hgroup]
    exact pairwise_positions_gather violations group.property
  length_eq group hgroup := ⟨isAligned_of_mem group hgroup, rfl⟩
  map_entries group hgroup := by
    have haligned := isAligned_of_mem group hgroup
    exact ⟨map_fst_entries haligned, map_snd_entries haligned⟩
  entry group hgroup position violation hentry := by
    rw [eq_gather_of_mem hgroup] at hentry
    obtain ⟨hget, hproperty⟩ := mem_entries_gather.mp hentry
    exact ⟨hget, Pointer.shows_iff.mpr hproperty⟩
  same_group_iff position other hposition hother := by
    constructor
    · rintro ⟨group, hgroup, hmem, hmem'⟩
      rw [eq_gather_of_mem hgroup, mem_positions_gather] at hmem hmem'
      obtain ⟨_, hproperty⟩ := hmem
      obtain ⟨_, hproperty'⟩ := hmem'
      exact hproperty.trans hproperty'.symm
    · intro hproperty
      have hkey : violations[position].property ∈ properties (ofViolations violations) := by
        rw [mem_properties_ofViolations]
        exact List.mem_map_of_mem (List.getElem_mem hposition)
      obtain ⟨group, hgroup, hgroupProperty⟩ := List.mem_map.mp hkey
      refine ⟨group, hgroup, ?_⟩
      rw [eq_gather_of_mem hgroup, mem_positions_gather, mem_positions_gather]
      exact ⟨⟨hposition, hgroupProperty.symm⟩, hother, hproperty.symm.trans hgroupProperty.symm⟩

/-- Entries in the order of their positions are known from what they are. -/
theorem eq_of_pairwise_lt {entries others : List (Nat × Violation)}
    (hentries : (entries.map Prod.fst).Pairwise (· < ·))
    (hothers : (others.map Prod.fst).Pairwise (· < ·))
    (hmem : ∀ entry, entry ∈ entries ↔ entry ∈ others) : entries = others := by
  have hirrefl : Std.Irrefl fun first second : Nat × Violation => first.1 < second.1 :=
    ⟨fun entry => Nat.lt_irrefl entry.1⟩
  have hantisymm : Std.Antisymm fun first second : Nat × Violation => first.1 < second.1 :=
    ⟨fun _ _ hlt hgt => absurd hlt (Nat.lt_asymm hgt)⟩
  exact (List.pairwise_map.mp hentries).eq_of_mem_iff (List.pairwise_map.mp hothers) hmem

namespace IsStablePartition

variable (h : IsStablePartition violations groups)
include h

/-- Two groups at the same property are one. -/
theorem eq_of_property_eq {group other : Group} (hgroup : group ∈ groups) (hother : other ∈ groups)
    (hproperty : group.property = other.property) : group = other :=
  List.inj_on_of_nodup_map h.nodup_properties hgroup hother hproperty

/-- The entries of a group are the violations at its property, each with its position. -/
theorem mem_entries_iff {group : Group} (hgroup : group ∈ groups) :
    (position, violation) ∈ group.entries ↔
      violations[position]? = some violation ∧ violation.property = group.property := by
  constructor
  · intro hentry
    obtain ⟨hget, hshows⟩ := h.entry group hgroup position violation hentry
    exact ⟨hget, Pointer.shows_iff.mp hshows⟩
  · rintro ⟨hget, hproperty⟩
    -- The position is in some group, which is at the same property and so is this one.
    have hlt := (List.getElem?_eq_some_iff.mp hget).1
    have hmem := h.positions_perm.mem_iff.mpr (List.mem_range.mpr hlt)
    obtain ⟨other, hother, hposition⟩ := List.mem_flatMap.mp hmem
    obtain ⟨found, hentry⟩ := (mem_positions (h.length_eq other hother).1).mp hposition
    obtain ⟨hfound, hshows⟩ := h.entry other hother position found hentry
    obtain rfl := Option.some.inj (hget.symm.trans hfound)
    have hsame := (Pointer.shows_iff.mp hshows).symm.trans hproperty
    rwa [h.eq_of_property_eq hother hgroup hsame] at hentry

/-- Each group of a stable partition holds all violations at its property. -/
theorem eq_gather {group : Group} (hgroup : group ∈ groups) :
    group = gather violations group.property := by
  have haligned := isAligned_gather violations group.property
  obtain ⟨hpositions, hviolations⟩ := h.map_entries group hgroup
  have hentries : group.entries = (gather violations group.property).entries := by
    apply eq_of_pairwise_lt
    · rw [hpositions]
      exact h.pairwise_lt group hgroup
    · rw [map_fst_entries haligned]
      exact pairwise_positions_gather violations group.property
    · intro entry
      exact (h.mem_entries_iff hgroup).trans mem_entries_gather.symm
  -- The entries give back both lists, so these are equal as well.
  refine Group.ext rfl ?_ ?_
  · rw [← hpositions, hentries, map_fst_entries haligned]
  · rw [← hviolations, hentries, map_snd_entries haligned]

theorem eq_map_gather :
    groups = ((violations.map Violation.property).eraseDups).map (gather violations) := by
  have hid : groups.map (fun group => gather violations group.property) = groups.map id :=
    List.map_congr_left fun group hgroup => (h.eq_gather hgroup).symm
  rw [← h.properties_eq, properties, List.map_map]
  exact (List.map_id groups).symm.trans hid.symm

end IsStablePartition

/-- Grouping gives the stable partition by properties, and that is the only one. -/
theorem eq_ofViolations_iff (violations : List Violation) (groups : List Group) :
    groups = ofViolations violations ↔ IsStablePartition violations groups := by
  have hgrouped := isStablePartition_ofViolations violations
  constructor
  · rintro rfl
    exact hgrouped
  · intro h
    rw [h.eq_map_gather, ← hgrouped.eq_map_gather]

end Group

end ConfigDiagnostics
