import ConfigDiagnostics.Proofs.Emission
import ConfigDiagnostics.Proofs.Rendering
import ConfigDiagnostics.Sink.Collecting
import Mathlib.Data.Fintype.Basic
import Mathlib.Data.List.FinRange
import Mathlib.Logic.Equiv.Fin.Basic
import Mathlib.Tactic.FinCases

/-!
# The order between properties does not matter

A validator may come to the properties of a document in any order. The positions of the violations
and the order of the groups follow it, but as long as no violation speaks for the others, what is
said at a property follows from the violations at that property alone.

## Main definitions

* `Rearrangement`: the violations of a list at other places, in the same order at each property
* `Dialect.byProperty`: the texts of a dialect, under the properties of their groups
* `Dialect.SaysAlike`: a dialect says the same about two lists, up to the order of properties

## Main results

* `Rearrangement.filter_eq`: the violations at a property are the same list
* `Dialect.byProperty_eq`: what is said at a property is said about the violations at it
* `Emission.exists_sendViolations_of_acceptsAll`: a sink that accepts everything is left with a
  diagnostic for each text
* `Dialect.saysAlike`: a dialect says the same about rearranged violations
-/

namespace ConfigDiagnostics

variable {violations others : List Violation}

/-! ### Rearrangements -/

/-- The same violations at other places: each goes to a place of its own, and of two at the same
property the earlier one stays the earlier one. -/
structure Rearrangement (violations others : List Violation) where
  place : Fin violations.length ≃ Fin others.length
  getElem_place : ∀ position, others[place position] = violations[position]
  place_lt_place : ∀ earlier later, earlier < later →
    violations[earlier].property = violations[later].property → place earlier < place later

/-- The positions of the violations at a property, in order. -/
def positionsAt (violations : List Violation) (key : String) : List (Fin violations.length) :=
  (List.finRange violations.length).filter fun position => violations[position].property = key

theorem mem_positionsAt {key : String} {position : Fin violations.length} :
    position ∈ positionsAt violations key ↔ violations[position].property = key := by
  simp [positionsAt]

theorem map_positionsAt (violations : List Violation) (key : String) :
    (positionsAt violations key).map (fun position => violations[position]) =
      violations.filter fun violation => violation.property = key := by
  have hall := List.map_getElem_finRange violations
  conv_rhs => rw [← hall, List.filter_map]
  rfl

namespace Rearrangement

variable (rearranged : Rearrangement violations others)
include rearranged

/-- The positions at a property go to the positions at that property, and stay in order. -/
theorem map_place_positionsAt (key : String) :
    (positionsAt violations key).map rearranged.place = positionsAt others key := by
  have hfrom : (positionsAt violations key).Pairwise (· < ·) :=
    (List.pairwise_lt_finRange _).filter _
  have hto : (positionsAt others key).Pairwise (· < ·) :=
    (List.pairwise_lt_finRange _).filter _
  have hplaced : ((positionsAt violations key).map rearranged.place).Pairwise (· < ·) := by
    rw [List.pairwise_map]
    refine hfrom.imp_of_mem ?_
    intro earlier later hearlier hlater hlt
    rw [mem_positionsAt] at hearlier hlater
    exact rearranged.place_lt_place earlier later hlt (hearlier.trans hlater.symm)
  -- Both are in increasing order, so it is enough to compare what is in them.
  apply hplaced.eq_of_mem_iff hto
  intro position
  rw [mem_positionsAt, List.mem_map]
  constructor
  · rintro ⟨former, hformer, rfl⟩
    rw [rearranged.getElem_place]
    exact mem_positionsAt.mp hformer
  · intro hkey
    obtain ⟨former, rfl⟩ := rearranged.place.surjective position
    rw [rearranged.getElem_place] at hkey
    exact ⟨former, mem_positionsAt.mpr hkey, rfl⟩

/-- At each property there are the same violations in the same order. -/
theorem filter_eq (key : String) :
    (others.filter fun violation => violation.property = key) =
      violations.filter fun violation => violation.property = key := by
  rw [← map_positionsAt, ← map_positionsAt, ← rearranged.map_place_positionsAt, List.map_map]
  apply List.map_congr_left
  intro position _
  exact rearranged.getElem_place position

theorem mem_iff {violation : Violation} : violation ∈ others ↔ violation ∈ violations := by
  have hown (list : List Violation) : violation ∈ list ↔
      violation ∈ list.filter fun found => found.property = violation.property := by
    simp
  rw [hown others, rearranged.filter_eq, ← hown violations]

theorem length_eq : others.length = violations.length :=
  (Fin.equiv_iff_eq.mp ⟨rearranged.place⟩).symm

/-- The groups are at the same properties, in some order. -/
theorem eraseDups_perm : (others.map Violation.property).eraseDups.Perm
    (violations.map Violation.property).eraseDups := by
  have hnodup (list : List Violation) : (list.map Violation.property).eraseDups.Nodup := by
    rw [← Group.properties_ofViolations]
    exact Group.nodup_properties_ofViolations list
  rw [List.perm_ext_iff_of_nodup (hnodup others) (hnodup violations)]
  intro key
  simp only [List.mem_eraseDups, List.mem_map, rearranged.mem_iff]

end Rearrangement

/-! ### What is said at a property -/

namespace Dialect

variable {dialect : Dialect}

/-- The texts of a dialect, under the properties of their groups. -/
def byProperty (dialect : Dialect) (violations : List Violation) : List (String × List String) :=
  (Group.properties (Group.ofViolations violations)).zip (dialect.sentences violations)

theorem length_sentences (dialect : Dialect) (violations : List Violation) :
    (dialect.sentences violations).length =
      (Group.properties (Group.ofViolations violations)).length := by
  rw [sentences, Group.properties, List.length_map, List.length_map]

theorem map_fst_byProperty (dialect : Dialect) (violations : List Violation) :
    (dialect.byProperty violations).map Prod.fst =
      Group.properties (Group.ofViolations violations) :=
  List.map_fst_zip (dialect.length_sentences violations).ge

theorem map_snd_byProperty (dialect : Dialect) (violations : List Violation) :
    (dialect.byProperty violations).map Prod.snd = dialect.sentences violations :=
  List.map_snd_zip (dialect.length_sentences violations).le

/-- Where nothing is combined, what is said at a property is said about the violations at it. -/
theorem byProperty_eq (hnot : ∀ violation ∈ violations, ¬ dialect.Combines violation) :
    dialect.byProperty violations = (violations.map Violation.property).eraseDups.map fun key =>
      (key, (violations.filter fun violation => violation.property = key).map
        dialect.templates.sentence) := by
  have hgroups := (Group.isStablePartition_ofViolations violations).eq_map_gather
  rw [byProperty, sentences, hgroups, Group.properties, List.map_map, List.map_map, List.zip_map']
  apply List.map_congr_left
  intro key _
  -- An entry has the text of its position, which is the sentence of its violation.
  refine Prod.ext rfl ?_
  change (Group.gather violations key).entries.map _ =
    (Group.gather violations key).violations.map _
  rw [← Group.map_snd_entries (Group.isAligned_gather violations key), List.map_map]
  apply List.map_congr_left
  rintro ⟨position, violation⟩ hentry
  obtain ⟨hget, -⟩ := Group.mem_entries_gather.mp hentry
  exact sentenceAt_of_not_combines hget (hnot violation (List.mem_of_getElem? hget))

/-- One list of texts is said at a property. -/
theorem texts_unique {key : String} {texts texts' : List String}
    (h : (key, texts) ∈ dialect.byProperty violations)
    (h' : (key, texts') ∈ dialect.byProperty violations) : texts' = texts := by
  have hnodup := Group.nodup_properties_ofViolations violations
  rw [← map_fst_byProperty dialect] at hnodup
  exact congrArg Prod.snd (List.inj_on_of_nodup_map hnodup h' h rfl)

/-- What is said about rearranged violations is the same at each property. -/
theorem byProperty_perm (rearranged : Rearrangement violations others)
    (hnot : ∀ violation ∈ violations, ¬ dialect.Combines violation) :
    (dialect.byProperty others).Perm (dialect.byProperty violations) := by
  have hnot' : ∀ violation ∈ others, ¬ dialect.Combines violation :=
    fun violation hmem => hnot violation (rearranged.mem_iff.mp hmem)
  rw [byProperty_eq hnot, byProperty_eq hnot']
  simp only [rearranged.filter_eq]
  exact rearranged.eraseDups_perm.map _

end Dialect

/-! ### Sending -/

theorem Collecting.acceptsAll : Sink.AcceptsAll Collecting.report :=
  fun _ _ => rfl

/-- A collecting sink shows what it holds. -/
theorem Collecting.keeps_held : Sink.Keeps Collecting.report Collecting.held :=
  fun _ _ => rfl

/-- A sink that accepts everything is left with a diagnostic for each text. -/
theorem Emission.exists_sendViolations_of_acceptsAll {σ : Type} {sink : Sink σ}
    (hsink : sink.AcceptsAll) (dialect : Dialect) (resource : String)
    (violations : List Violation) (state : σ) :
    ∃ last, sendViolations dialect sink resource violations state =
        (.reported violations.length, last) ∧
      ∀ view, sink.Keeps view → view last =
        view state ++ (dialect.sentences violations).flatten.map (about resource) := by
  obtain ⟨last, calls, htraced, hcalls, hanswers⟩ :=
    sendViolations_spec hsink.neverCrashes dialect resource violations state
  have hnone := hanswers.refusals_eq_nil hsink
  rw [hnone] at htraced
  refine ⟨last, sendViolations_of_traced htraced, ?_⟩
  intro view hview
  rw [hanswers.view_eq hview, GroupCalls.flatten_eq_map hcalls hnone, Call.accepted,
    List.filterMap_map]
  congr 1
  exact List.filterMap_eq_map_iff_forall_eq_some.mpr fun _ _ => rfl

namespace Dialect

/-- The dialect says the same about two lists of violations, up to the order of properties. -/
structure SaysAlike (dialect : Dialect) (violations others : List Violation) : Prop where
  /-- The groups are at the same properties. -/
  mem_properties_iff : ∀ key, key ∈ Group.properties (Group.ofViolations others) ↔
    key ∈ Group.properties (Group.ofViolations violations)
  /-- The texts at a property are the same, in the same order. -/
  texts_eq : ∀ key texts texts', (key, texts) ∈ dialect.byProperty violations →
    (key, texts') ∈ dialect.byProperty others → texts' = texts
  /-- So all that is said differs in the order of the groups only. -/
  byProperty_perm : (dialect.byProperty others).Perm (dialect.byProperty violations)
  /-- A sink that accepts everything, in whatever state it is, gets the same number of diagnostics
  reported, and is left with the same diagnostics in some order. -/
  sending : ∀ (σ : Type) (sink : Sink σ), sink.AcceptsAll → ∀ (resource : String) (state : σ),
    ∃ last last',
      Emission.sendViolations dialect sink resource violations state =
        (.reported violations.length, last) ∧
      Emission.sendViolations dialect sink resource others state =
        (.reported violations.length, last') ∧
      ∀ view, sink.Keeps view → (view last').Perm (view last)

/-- A dialect says the same about rearranged violations, unless it combines alternatives and there
are some among the violations. -/
theorem saysAlike {dialect : Dialect} (rearranged : Rearrangement violations others)
    (hcombines : dialect.combinesAlternatives = false ∨
      ∀ violation ∈ violations, violation.keyword ≠ .anyOf) :
    dialect.SaysAlike violations others := by
  have hnot : ∀ violation ∈ violations, ¬ dialect.Combines violation := by
    rintro violation hmem ⟨hcombined, hkeyword⟩
    rcases hcombines with hcombines | hcombines
    · exact Bool.false_ne_true (hcombines.symm.trans hcombined)
    · exact hcombines violation hmem hkeyword
  have hperm := byProperty_perm rearranged hnot
  refine ⟨?_, ?_, hperm, ?_⟩
  · intro key
    rw [← map_fst_byProperty dialect others, ← map_fst_byProperty dialect violations]
    exact (hperm.map Prod.fst).mem_iff
  · intro key texts texts' h h'
    exact texts_unique h (hperm.mem_iff.mp h')
  · intro σ sink hsink resource state
    obtain ⟨last, hsend, hview⟩ :=
      Emission.exists_sendViolations_of_acceptsAll hsink dialect resource violations state
    obtain ⟨last', hsend', hview'⟩ :=
      Emission.exists_sendViolations_of_acceptsAll hsink dialect resource others state
    rw [rearranged.length_eq] at hsend'
    refine ⟨last, last', hsend, hsend', ?_⟩
    intro view hkeeps
    have hsentences := hperm.map Prod.snd
    rw [map_snd_byProperty, map_snd_byProperty] at hsentences
    rw [hview view hkeeps, hview' view hkeeps]
    exact (hsentences.flatten.map (Emission.about resource)).append_left (view state)

/-- Three violations, the first of them at `a`. -/
def startingAtA : List Violation :=
  [.new ⟨"/a"⟩ .type "1", .new ⟨"/b"⟩ .type "2", .new ⟨".a"⟩ .pattern "3"]

/-- The same violations, the first of them at `b`. -/
def startingAtB : List Violation :=
  [.new ⟨"/b"⟩ .type "2", .new ⟨"/a"⟩ .type "1", .new ⟨".a"⟩ .pattern "3"]

/-- The first two violations change places. -/
def exchange : Rearrangement startingAtA startingAtB where
  place := (Equiv.swap 0 1 : Equiv.Perm (Fin 3))
  getElem_place := by
    intro (position : Fin 3)
    fin_cases position <;> rfl
  place_lt_place := by decide +kernel

/-- The groups change places, each with its texts in order, and a collecting sink is left with the
same diagnostics. -/
theorem saysAlike_exchange : typescript.SaysAlike startingAtA startingAtB ∧
    typescript.byProperty startingAtA = [("a", ["1", "'a' 3. Value found 'null'"]), ("b", ["2"])] ∧
    typescript.byProperty startingAtB = [("b", ["2"]), ("a", ["1", "'a' 3. Value found 'null'"])] ∧
    ∃ sink sink', Emission.sendViolations typescript Collecting.report "tsconfig.json" startingAtA
        {} = (.reported 3, sink) ∧
      Emission.sendViolations typescript Collecting.report "tsconfig.json" startingAtB
        {} = (.reported 3, sink') ∧
      sink'.held.Perm sink.held := by
  have hcombines : typescript.combinesAlternatives = false ∨
      ∀ violation ∈ startingAtA, violation.keyword ≠ .anyOf := by
    apply Or.inr
    simp [startingAtA, Violation.new]
  have halike := saysAlike exchange hcombines
  obtain ⟨sink, sink', hsend, hsend', hview⟩ :=
    halike.sending Collecting Collecting.report Collecting.acceptsAll "tsconfig.json" {}
  refine ⟨halike, ?_, ?_, sink, sink', hsend, hsend', hview _ Collecting.keeps_held⟩
  · decide +kernel
  · decide +kernel

end Dialect

end ConfigDiagnostics
